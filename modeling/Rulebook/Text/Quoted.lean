import Rulebook.Text.Shown

/-!
# Quoted text in messages

A message shows a text between quotation marks so that it can be read off exactly:
what would not be seen, or would be set on the character before it, is spelled by its
number.

* `Rulebook.Text.quoted` – a text in quotation marks.
-/

namespace Rulebook.Text

/-- A character by its number in hexadecimal digits. -/
def spelled (c : Char) : List Char :=
  '\\' :: 'u' :: '\x7b' :: (Nat.toDigits 16 c.toNat ++ ['\x7d'])

/-- A character inside quotation marks. -/
def quotedChar (c : Char) : List Char :=
  if c = '"' then ['\\', '"']
  else if c = '\\' then ['\\', '\\']
  else if c = '\n' then ['\\', 'n']
  else if c = '\r' then ['\\', 'r']
  else if c = '\t' then ['\\', 't']
  else if c.toNat = 0 then ['\\', '0']
  else if isShown c then [c]
  else spelled c

/-- **A text in quotation marks.** -/
def quoted (s : String) : String :=
  String.ofList ('"' :: (s.toList.flatMap quotedChar ++ ['"']))

end Rulebook.Text
