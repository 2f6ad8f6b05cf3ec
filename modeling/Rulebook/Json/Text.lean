import Rulebook.Json.Decode
import Rulebook.Json.Reader

/-!
# Decoding text

A text is decoded as far as it can be read: a value of the wrong kind is reported even if
the text is faulty further on, but nothing is made of a text that does not end where its
document ends.
-/

namespace Rulebook

/-- **What is made of a text.** -/
def Decode.ofText {α : Type} (decode : Document → Decoded α) (s : String) : Decoded α := do
  let r := Document.read s
  let a ← decode r.root
  if r.complete then return a else throw .malformed

end Rulebook
