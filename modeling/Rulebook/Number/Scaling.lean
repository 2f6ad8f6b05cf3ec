import Rulebook.Number.Decimal

/-!
# Scaling by powers of ten, in steps

`Rulebook.Decimal.nearest` reads a decimal with a single rounding. Here a decimal is read
in steps instead, each of which rounds to the nearest magnitude: first its digits, then
their product with a power of ten, or their quotient by one, which has been rounded as
well. The result may differ from the nearest magnitude in its last bits.

* `Rulebook.Format.mul`, `Rulebook.Format.div` – the **rounded product and quotient** of two
  magnitudes;
* `Rulebook.Format.scaleTen` – a magnitude **scaled by a power of ten**;
* `Rulebook.Decimal.stepwise` – the reading of a decimal in steps.

A product with a power of ten that is itself too large is too large, but for zero. A quotient
by such a power is taken in several steps, and ends early at zero.
-/

namespace Rulebook

namespace Format

/-- The magnitude nearest to the product of two magnitudes. -/
def mul (f : Format) (m n : Nat) : Nat := f.nearest (f.num m * f.num n) (f.den m * f.den n)

/-- The magnitude nearest to the quotient of two magnitudes. -/
def div (f : Format) (m n : Nat) : Nat := f.nearest (f.num m * f.den n) (f.den m * f.num n)

/-- The magnitude nearest to a power of ten. -/
def tenTo (f : Format) (k : Nat) : Nat := f.nearest (Nat.pow 10 k) 1

/-- The greatest power of ten that one step scales by: the last one that 64 bits hold. -/
def maxStep : Nat := 308

/-- **A magnitude scaled by `10 ^ e`**, in steps that round to the nearest magnitude. A
result of `Format.size` or more means that the product is too large. -/
def scaleTen (f : Format) (m : Nat) (e : Int) : Nat :=
  if 0 ≤ e then
    if e ≤ (maxStep : Int) then f.mul m (f.tenTo e.toNat)
    else if m = 0 then 0 else f.size
  else if -(maxStep : Int) ≤ e then f.div m (f.tenTo (-e).toNat)
  else if m = 0 then 0
  else scaleTen f (f.div m (f.tenTo maxStep)) (e + (maxStep : Int))
termination_by (-e).toNat
decreasing_by
  simp only [maxStep] at *
  omega

end Format

/-- **The reading of a decimal in steps**: the digits, then the power of ten. -/
def Decimal.stepwise {f : Format} (negative : Bool) (d : Decimal) : Binary f :=
  let m := f.scaleTen (f.nearest d.digits 1) d.exponent
  if h : m < f.size then .finite negative ⟨m, h⟩ else .infinite negative

end Rulebook
