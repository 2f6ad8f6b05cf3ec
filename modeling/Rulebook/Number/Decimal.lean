import Rulebook.Number.Binary

/-!
# Decimals, and the decimal that identifies a binary number

* `Rulebook.Decimal` – a natural number of digits at a power of ten;
* `Rulebook.Decimal.nearest` – the **reading** of a decimal: the binary number
  nearest to it;
* `Rulebook.Decimal.shortest` – the **writing** of a binary number: of the
  decimals with the fewest digits that read back to it, the nearest one.

The search for the digits takes one digit, two digits and so on, and on each grid
looks at the two neighbours of the number only. Should no grid of up to seventeen
digits hold a decimal that reads back, the exact value is taken.
-/

namespace Rulebook

/-- The decimal `digits * 10 ^ exponent`. -/
structure Decimal where
  /-- The digits, as a natural number. -/
  digits : Nat
  /-- The power of ten of the last digit. -/
  exponent : Int
deriving DecidableEq, Repr

namespace Decimal

/-- How many digits a natural number is written with; none for zero. -/
def digitCount (n : Nat) : Nat := if n = 0 then 0 else (Nat.toDigits 10 n).length

/-! ### Reading -/

/-- The numerator of a decimal as a quotient. -/
def num (d : Decimal) : Nat := d.digits * Nat.pow 10 d.exponent.toNat

/-- The denominator of a decimal as a quotient. -/
def den (d : Decimal) : Nat := Nat.pow 10 (-d.exponent).toNat

/-- Decimals of `10 ^ reach` or more are beyond every format in use here, and
those below `10 ^ (-reach)` are less than half of every least magnitude. -/
def reach : Nat := 400

/-- **The reading of a decimal**: the number of the format nearest to it. A decimal
beyond `Decimal.reach` is not spelled out as a quotient first. -/
def nearest {f : Format} (negative : Bool) (d : Decimal) : Binary f :=
  let lead : Int := d.exponent + digitCount d.digits
  if d.digits = 0 ∨ lead < -(reach : Int) then .ofRatio negative 0 1
  else if (reach : Int) < lead then .infinite negative
  else .ofRatio negative d.num d.den

/-! ### Writing -/

/-- Which of two decimals equally near to a number is taken. -/
inductive Tie where
  /-- The one whose last digit is even. -/
  | toEven
  /-- The larger magnitude. -/
  | up
deriving DecidableEq, Repr

/-- The greatest `k` with `10 ^ k ≤ num / den`, for positive `num` and `den`. -/
def leadExponent (num den : Nat) : Int :=
  let k : Int := (digitCount num : Int) - (digitCount den : Int)
  if den * Nat.pow 10 k.toNat ≤ num * Nat.pow 10 (-k).toNat then k else k - 1

/-- The same decimal with no zero as its last digit. -/
def strip (d : Decimal) : Decimal :=
  if h : d.digits ≠ 0 ∧ d.digits % 10 = 0 then strip ⟨d.digits / 10, d.exponent + 1⟩ else d
termination_by d.digits
decreasing_by omega

/-- Whether the decimal reads back to the magnitude. -/
def readsBack {f : Format} (m : Fin f.size) (d : Decimal) : Bool :=
  decide (nearest false d = Binary.finite false m)

/-- The decimal on the grid `10 ^ p` that stands for `num / den`: of its two
neighbours on the grid those that pass the test, and of two that pass the nearer. -/
def onGrid (tie : Tie) (num den : Nat) (passes : Decimal → Bool) (p : Int) : Option Decimal :=
  let n := num * Nat.pow 10 (-p).toNat
  let d := den * Nat.pow 10 p.toNat
  let low : Decimal := ⟨n / d, p⟩
  let high : Decimal := ⟨n / d + 1, p⟩
  let rest := 2 * (n % d)
  -- A number on the grid has no second neighbour.
  if n % d = 0 then if passes low then some low else none
  else
    match passes low, passes high with
    | false, false => none
    | true, false => some low
    | false, true => some high
    | true, true =>
      if rest < d then some low
      else if d < rest then some high
      else
        match tie with
        | .up => some high
        | .toEven => if low.digits % 2 = 0 then some low else some high

/-- The exact value of a magnitude: a power of two below one is a power of five
over a power of ten. -/
def exact (m : Nat) (scale : Int) : Decimal :=
  ⟨m * Nat.pow 2 scale.toNat * Nat.pow 5 (-scale).toNat, if scale < 0 then scale else 0⟩

/-- **The fewest digits that read back** to a magnitude, and of the decimals with
so many digits the nearest one. -/
def shortest {f : Format} (tie : Tie) (m : Fin f.size) : Decimal :=
  if m.val = 0 then ⟨0, 0⟩
  else
    let lead := leadExponent (f.num m) (f.den m)
    let grids : List Int := (List.range 17).map fun (i : Nat) => lead - (i : Int)
    let found? := grids.findSome? (onGrid tie (f.num m) (f.den m) (readsBack m))
    (found?.getD (exact (f.significand m) (f.scale m))).strip

end Decimal

end Rulebook
