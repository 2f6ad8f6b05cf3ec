import Rulebook.Number.Decimal

/-!
# How a number is written

Which digits stand for a number is settled by `Rulebook.Decimal.shortest`; this
file lays them out.

* `Rulebook.Layout` – the decisions one way of writing numbers takes;
* `Rulebook.Layout.wire` – numbers inside JSON: always with a fraction or an
  exponent, so that they are told from integers;
* `Rulebook.Layout.plain` – numbers inside sentences: never an exponent, and no
  fraction where there is none.
-/

namespace Rulebook

/-- The decisions taken in writing a number. -/
structure Layout where
  /-- The exponents of the leading digit, from and to, that are written without an
  exponent; `none` writes them all so. -/
  positional : Option (Int × Int)
  /-- Whether a whole number is written with the fraction `.0`. -/
  pointZero : Bool
  /-- Which of two equally near decimals is written. -/
  tie : Decimal.Tie
deriving Repr

namespace Layout

/-- Numbers in JSON are positional from `10 ^ -5` to below `10 ^ 16`, with a fraction
even if it is zero, and have a signed exponent outside. -/
def wire : Layout := ⟨some (-5, 15), true, .toEven⟩

/-- Numbers in sentences are positional throughout, and whole numbers have no
fraction. -/
def plain : Layout := ⟨none, false, .up⟩

/-- So many zeros. -/
def zeros (n : Nat) : String := String.ofList (List.replicate n '0')

/-- Digits with the point where the exponent puts it: behind them, among them, or
in front of them after zeros. -/
def placePoint (pointZero : Bool) (digits : List Char) (exponent : Int) : String :=
  let whole := if pointZero then ".0" else ""
  if 0 ≤ exponent then String.ofList digits ++ zeros exponent.toNat ++ whole
  else
    let places := (-exponent).toNat
    if places < digits.length then
      String.ofList (digits.take (digits.length - places)) ++ "." ++
        String.ofList (digits.drop (digits.length - places))
    else "0." ++ zeros (places - digits.length) ++ String.ofList digits

/-- Digits with a point after the first of them and the exponent of that first
digit behind. -/
def withExponent (digits : List Char) (lead : Int) : String :=
  let mantissa :=
    match digits with
    | c :: d :: rest => String.ofList (c :: '.' :: d :: rest)
    | short => String.ofList short
  mantissa ++ (if lead < 0 then "e-" else "e+") ++ toString lead.natAbs

/-- The text of a decimal. -/
def decimal (l : Layout) (d : Decimal) : String :=
  let digits := Nat.toDigits 10 d.digits
  let lead : Int := d.exponent + digits.length - 1
  match l.positional with
  | none => placePoint l.pointZero digits d.exponent
  | some (low, high) =>
    if low ≤ lead ∧ lead ≤ high then placePoint l.pointZero digits d.exponent
    else withExponent digits lead

/-- The sign in front of a magnitude. -/
def sign (negative : Bool) : String := if negative then "-" else ""

/-- **The text of a number**: its sign and the fewest digits that identify it. -/
def text {f : Format} (l : Layout) : Binary f → String
  | .nan => "NaN"
  | .infinite s => sign s ++ "inf"
  | .finite s m => sign s ++ l.decimal (Decimal.shortest l.tie m)

end Layout

end Rulebook
