import Mathlib.Algebra.Order.Field.Power
import Mathlib.Data.Int.ConditionallyCompleteOrder
import Mathlib.Data.Rat.Floor
import Mathlib.Order.WithBot
import Mathlib.Tactic.FieldSimp
import Mathlib.Tactic.NormNum
import Mathlib.Tactic.Ring
import Rulebook.Number.Binary

/-!
# What a binary number is worth

A magnitude is a number of its own, and its order is that of the magnitudes because that is how
they are numbered. Here each is given its value, a dyadic rational, and the numbering is shown to
be in the order of the values; so ranks, which the comparison looks at, compare as values do.

* `Rulebook.Format.value` – the **value of a magnitude**: its significand, scaled;
* `Rulebook.Format.units` – the same as a natural number of least magnitudes, and
  `Rulebook.Format.strictMono_units`: it goes up strictly with the number of the magnitude;
* `Rulebook.Binary.value?` – the **value of a binary number** on the line of the rationals with an
  end on either side;
* `Rulebook.Binary.atLeast_iff` – the comparison compares values;
* `Rulebook.Binary.floor?_finite`, `Rulebook.Binary.ceil?_finite` – the integers next to a finite
  number are those next to its value.
-/

namespace Rulebook

/-- The line of the rationals with an end on either side. -/
abbrev ExtendedRat : Type := WithBot (WithTop ℚ)

/-- A power with an integer as its exponent is a quotient of two, one of which is one. -/
theorem zpow_eq_div {b : ℚ} (hb : b ≠ 0) (k : Int) : b ^ k = b ^ k.toNat / b ^ (-k).toNat := by
  rw [← zpow_natCast, ← zpow_natCast, ← zpow_sub₀ hb, Int.toNat_sub_toNat_neg]

/-! ### Magnitudes -/

namespace Format

variable (f : Format)

/-- The exponent code of the magnitude numbered `n`. -/
def code (n : Nat) : Nat := n / 2 ^ f.fractionBits

/-- **The value of the magnitude numbered `n`**: its significand times a power of two. -/
def value (n : Nat) : ℚ := f.significand n * 2 ^ f.scale n

/-- How many times the least positive magnitude goes into the magnitude numbered `n`. -/
def units (n : Nat) : Nat := f.significand n * 2 ^ (f.code n - 1)

theorem scale_eq (n : Nat) : f.scale n = f.minScale + ((f.code n - 1 : Nat) : Int) := rfl

/-- In code zero the significand is all of the number. -/
theorem significand_of_code_eq_zero {n : Nat} (h : f.code n = 0) : f.significand n = n := if_pos h

/-- In the other codes the significand is the fraction with the leading one in front. -/
theorem significand_of_code_ne_zero {n : Nat} (h : f.code n ≠ 0) :
    f.significand n = 2 ^ f.fractionBits + n % 2 ^ f.fractionBits := if_neg h

/-- The exponent code and the fraction make up the number. -/
theorem code_mul_add_mod (n : Nat) :
    2 ^ f.fractionBits * f.code n + n % 2 ^ f.fractionBits = n := Nat.div_add_mod n _

theorem mod_lt (n : Nat) : n % 2 ^ f.fractionBits < 2 ^ f.fractionBits :=
  Nat.mod_lt n (Nat.two_pow_pos _)

theorem lt_of_code_eq_zero {n : Nat} (h : f.code n = 0) : n < 2 ^ f.fractionBits :=
  (Nat.div_eq_zero_iff_lt (Nat.two_pow_pos _)).mp h

/-- **The units of a code end before those of the next code begin.** -/
theorem units_lt (n : Nat) : f.units n < 2 ^ f.fractionBits * 2 ^ f.code n := by
  by_cases hcode : f.code n = 0
  · have hn := f.lt_of_code_eq_zero hcode
    rw [units, f.significand_of_code_eq_zero hcode, hcode]
    simpa using hn
  · have hmod := f.mod_lt n
    have hpow : 2 ^ f.code n = 2 * 2 ^ (f.code n - 1) := by
      rw [← Nat.pow_succ']
      congr 1
      omega
    rw [units, f.significand_of_code_ne_zero hcode, hpow, ← Nat.mul_assoc]
    exact Nat.mul_lt_mul_of_pos_right (by omega) (Nat.two_pow_pos _)

theorem le_units {n : Nat} (h : f.code n ≠ 0) :
    2 ^ f.fractionBits * 2 ^ (f.code n - 1) ≤ f.units n := by
  rw [units, f.significand_of_code_ne_zero h]
  exact Nat.mul_le_mul_right _ (Nat.le_add_right _ _)

/-- Within a code the units go up with the fraction. -/
theorem units_lt_units_of_code_eq {m n : Nat} (h : m < n) (hcode : f.code m = f.code n) :
    f.units m < f.units n := by
  have hm := f.code_mul_add_mod m
  have hn := f.code_mul_add_mod n
  have hsignificand : f.significand m < f.significand n := by
    by_cases hzero : f.code n = 0
    · rw [f.significand_of_code_eq_zero hzero, f.significand_of_code_eq_zero (hcode.trans hzero)]
      exact h
    · rw [f.significand_of_code_ne_zero hzero,
        f.significand_of_code_ne_zero (fun he => hzero (hcode ▸ he))]
      rw [hcode] at hm
      omega
  rw [units, units, hcode]
  exact Nat.mul_lt_mul_of_pos_right hsignificand (Nat.two_pow_pos _)

/-- **The numbering of the magnitudes is in the order of their units.** -/
theorem strictMono_units : StrictMono f.units := by
  intro m n h
  have hle : f.code m ≤ f.code n := Nat.div_le_div_right (Nat.le_of_lt h)
  rcases Nat.lt_or_eq_of_le hle with hlt | heq
  · have hpow : 2 ^ f.code m ≤ 2 ^ (f.code n - 1) := Nat.pow_le_pow_right Nat.two_pos (by omega)
    calc f.units m < 2 ^ f.fractionBits * 2 ^ f.code m := f.units_lt m
      _ ≤ 2 ^ f.fractionBits * 2 ^ (f.code n - 1) := Nat.mul_le_mul_left _ hpow
      _ ≤ f.units n := f.le_units (by omega)
  · exact f.units_lt_units_of_code_eq h heq

/-- The value of a magnitude is that of its units. -/
theorem value_eq_units_mul (n : Nat) : f.value n = f.units n * 2 ^ f.minScale := by
  have hscale : (2 : ℚ) ^ f.scale n = 2 ^ (f.code n - 1) * 2 ^ f.minScale := by
    rw [scale_eq, zpow_add₀ two_ne_zero, zpow_natCast, Rat.mul_comm]
  rw [value, units, hscale, Nat.cast_mul, Nat.cast_pow, Nat.cast_ofNat, mul_assoc]

/-- **The numbering of the magnitudes is in the order of their values.** -/
theorem strictMono_value : StrictMono f.value := by
  intro m n h
  rw [value_eq_units_mul, value_eq_units_mul]
  have hpos : (0 : ℚ) < 2 ^ f.minScale := zpow_pos two_pos _
  have hunits : (f.units m : ℚ) < f.units n := by exact_mod_cast f.strictMono_units h
  exact mul_lt_mul_of_pos_right hunits hpos

theorem value_zero : f.value 0 = 0 := by
  have hcode : f.code 0 = 0 := Nat.zero_div _
  rw [value, f.significand_of_code_eq_zero hcode, Nat.cast_zero, zero_mul]

theorem value_nonneg (n : Nat) : 0 ≤ f.value n := by
  rw [← f.value_zero]
  exact f.strictMono_value.monotone (Nat.zero_le n)

/-! ### Ranks -/

/-- The value of the number with a rank, if the rank is that of a finite number. -/
def rankValue (r : Int) : ℚ := if r < 0 then -f.value r.natAbs else f.value r.natAbs

/-- **Ranks are in the order of the values.** -/
theorem strictMono_rankValue : StrictMono f.rankValue := by
  intro a b h
  unfold rankValue
  by_cases ha : a < 0
  · rw [if_pos ha]
    by_cases hb : b < 0
    · rw [if_pos hb, neg_lt_neg_iff]
      exact f.strictMono_value (by omega)
    · rw [if_neg hb]
      have hpos : f.value 0 < f.value a.natAbs := f.strictMono_value (by omega)
      rw [f.value_zero] at hpos
      exact lt_of_lt_of_le (neg_lt_zero.mpr hpos) (f.value_nonneg _)
  · rw [if_neg ha, if_neg (by omega)]
    exact f.strictMono_value (by omega)

end Format

/-! ### Numbers -/

namespace Binary

variable {f : Format}

/-- The value of a finite number. -/
def signedValue (negative : Bool) (m : Fin f.size) : ℚ :=
  if negative then -f.value m else f.value m

/-- **The value of a number**: the infinities lie at the ends, and `nan` has none. -/
def value? : Binary f → Option ExtendedRat
  | .nan => none
  | .infinite true => some ⊥
  | .infinite false => some ⊤
  | .finite s m => some ((signedValue s m : ℚ) : WithTop ℚ)

/-- The rank of a finite number. -/
def signedRank (negative : Bool) (m : Fin f.size) : Int :=
  if negative then -(m.val : Int) else m.val

/-- The rank of a finite number has its value. -/
theorem rankValue_signedRank (s : Bool) (m : Fin f.size) :
    f.rankValue (signedRank s m) = signedValue s m := by
  unfold Format.rankValue signedRank signedValue
  cases s with
  | false => simp
  | true =>
    by_cases hm : m.val = 0
    · simp [hm, f.value_zero]
    · have hneg : -(m.val : Int) < 0 := by omega
      rw [if_pos rfl, if_pos rfl, if_pos hneg, Int.natAbs_neg, Int.natAbs_natCast]

/-- Finite numbers are ranked in the order of their values. -/
theorem signedRank_le_iff {s t : Bool} {m n : Fin f.size} :
    signedRank s m ≤ signedRank t n ↔ signedValue s m ≤ signedValue t n := by
  rw [← rankValue_signedRank, ← rankValue_signedRank, f.strictMono_rankValue.le_iff_le]

/-- The finite numbers lie inside the ranks of the infinities. -/
theorem signedRank_lt_size (s : Bool) (m : Fin f.size) :
    -(f.size : Int) < signedRank s m ∧ signedRank s m < f.size := by
  have hm := m.isLt
  unfold signedRank
  split <;> omega

/-- **The comparison compares values**, and nothing compares with `nan`. -/
theorem atLeast_iff (hf : 0 < f.size) {x y : Binary f} :
    x.atLeast y = true ↔ ∃ a b, x.value? = some a ∧ y.value? = some b ∧ b ≤ a := by
  rcases x with _ | (_ | _) | ⟨s, m⟩ <;> rcases y with _ | (_ | _) | ⟨t, n⟩ <;>
    simp [atLeast, rank?, value?]
  -- What is left is where the two differ in kind, and two finite numbers.
  case infinite.true.infinite.false => exact Nat.ne_of_gt hf
  case infinite.false.finite => exact (signedRank_lt_size t n).2.le
  case infinite.true.finite => exact (signedRank_lt_size t n).1
  case finite.infinite.false => exact (signedRank_lt_size s m).2
  case finite.infinite.true => exact (signedRank_lt_size s m).1.le
  case finite.finite => exact signedRank_le_iff

/-! ### The integers next to a number -/

/-- **The floor of a scaled integer** is that of its value. -/
theorem floorScaled_eq (m k : Int) : floorScaled m k = ⌊(m : ℚ) * 2 ^ k⌋ := by
  have hquotient : (m : ℚ) * 2 ^ k =
      ((m * 2 ^ k.toNat : Int) : ℚ) / ((2 ^ (-k).toNat : Nat) : ℚ) := by
    rw [zpow_eq_div two_ne_zero]
    push_cast
    ring
  rw [hquotient, Rat.floor_intCast_div_natCast, floorScaled]
  rfl

theorem ceilScaled_eq (m k : Int) : ceilScaled m k = ⌈(m : ℚ) * 2 ^ k⌉ := by
  rw [ceilScaled, floorScaled_eq, Int.cast_neg, neg_mul, Int.floor_neg, neg_neg]

theorem signedSignificand_mul (s : Bool) (m : Fin f.size) :
    (signedSignificand s m : ℚ) * 2 ^ f.scale m = signedValue s m := by
  unfold signedSignificand signedValue Format.value
  cases s <;> simp

theorem floor?_finite (s : Bool) (m : Fin f.size) :
    (finite s m).floor? = some ⌊signedValue s m⌋ := by
  rw [floor?, floorScaled_eq, signedSignificand_mul]

theorem ceil?_finite (s : Bool) (m : Fin f.size) :
    (finite s m).ceil? = some ⌈signedValue s m⌉ := by
  rw [ceil?, ceilScaled_eq, signedSignificand_mul]

end Binary

end Rulebook
