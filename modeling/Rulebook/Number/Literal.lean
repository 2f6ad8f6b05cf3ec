import Rulebook.Number.Layout
import Rulebook.Number.Numeral
import Rulebook.Text.Blank

/-!
# Number literals

A measured value and its threshold are given as text. A literal that spells an
integer of 64 bits stays an integer; any other is a binary number.

* `Rulebook.Literal.parse?` – the literal that a text spells;
* `Rulebook.Literal.text` – how a literal is shown. An integer shows its digits, and
  a whole binary number below `10 ^ 16` keeps the fraction `.0`, so that what is shown
  has the kind of what was read.
-/

namespace Rulebook

/-- A number as it was given. -/
inductive Literal where
  /-- An integer of 64 bits. -/
  | integer (i : Int64)
  /-- A binary number. -/
  | real (x : Double)
deriving DecidableEq, Repr

namespace Literal

/-! ### Reading -/

/-- A sign, if the text starts with one, and the rest. -/
def splitSign : List Char → Bool × List Char
  | '-' :: rest => (true, rest)
  | '+' :: rest => (false, rest)
  | rest => (false, rest)

/-- The integer that an optional sign and digits spell. -/
def integer? (cs : List Char) : Option Int :=
  let (negative, digits) := splitSign cs
  if digits.isEmpty || !digits.all Char.isDigit then none
  else some (if negative then -(digitsValue digits : Int) else digitsValue digits)

/-- The integer if 64 bits hold it. -/
def int64? (i : Int) : Option Int64 :=
  if Int64.minValue.toInt ≤ i ∧ i ≤ Int64.maxValue.toInt then some (Int64.ofInt i) else none

/-- The binary number of a format that a numeral with an optional sign spells. Digits
may lack on one side of the point. The infinities and `nan` are spelled as words, in
letters of either case. -/
def real? {f : Format} (cs : List Char) : Option (Binary f) :=
  let (negative, body) := splitSign cs
  let word := String.ofList (body.map Char.toLower)
  if word = "inf" ∨ word = "infinity" then some (.infinite negative)
  else if word = "nan" then some .nan
  else
    let (numeral, rest) := Numeral.scan body
    let spelled := !(numeral.whole.isEmpty && (numeral.fraction.getD []).isEmpty)
    if rest.isEmpty && spelled && numeral.exponentSpelled then
      some (numeral.decimal.nearest negative)
    else none

/-- **The literal a text spells**, blank characters around it aside. -/
def parse? (s : String) : Option Literal :=
  let cs := Text.trimChars s.toList
  match (integer? cs).bind int64? with
  | some i => some (.integer i)
  | none => (real? cs).map .real

/-! ### Showing -/

/-- Whether a binary number is shown with the fraction `.0`: it is whole and its
magnitude is below `10 ^ 16`. -/
def showsPointZero (x : Double) : Bool :=
  x.isWhole && !Binary.atLeast x.magnitude (.ofInt (Nat.pow 10 16))

/-- **How a literal is shown.** -/
def text : Literal → String
  | .integer i => toString i.toInt
  | .real x => { Layout.plain with pointZero := showsPointZero x }.text x

/-! ### As a binary number -/

/-- The binary number nearest to a literal. -/
def toDouble : Literal → Double
  | .integer i => .ofInt i.toInt
  | .real x => x

end Literal

end Rulebook
