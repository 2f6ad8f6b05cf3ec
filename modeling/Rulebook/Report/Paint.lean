/-!
# Coloured text

A text is coloured by a control sequence in front of it and another behind it that ends the
colour.
-/

namespace Rulebook

/-- A colour. -/
inductive Colour where
  /-- Green, for success. -/
  | green
  /-- Yellow, for what is worth a second look. -/
  | yellow
deriving DecidableEq, Repr

namespace Colour

/-- The control sequence that starts a colour. -/
def start : Colour → String
  | .green => "\x1b[32m"
  | .yellow => "\x1b[33m"

/-- The control sequence that ends every colour. -/
def stop : String := "\x1b[0m"

/-- **A text in a colour.** Where the text itself ends a colour, this one starts again. -/
def paint (c : Colour) (text : String) : String :=
  c.start ++ text.replace stop (stop ++ c.start) ++ stop

end Colour

end Rulebook
