import Mathlib.Data.Int.Log
import Rulebook.Proofs.Number.Value

/-!
# Rounding looks at the quotient only

The nearest magnitude is computed from a numerator and a denominator. What matters of them is
their quotient: a common factor changes nothing, and the quotient that a magnitude is worth rounds
to that magnitude.

* `Rulebook.binaryExponent_eq_log` – the exponent of the leading bit is the logarithm of the
  quotient, rounded down;
* `Rulebook.Format.nearest_mul_left` – a **common factor** does not matter;
* `Rulebook.Format.nearest_num_den` – **magnitudes are their own nearest** magnitudes;
* `Rulebook.Binary.isFinite_ofInt` – the number nearest to an integer of 64 bits is finite.
-/

namespace Rulebook

/-! ### The exponent of the leading bit -/

/-- The test that settles which of two exponents it is. -/
theorem mul_two_pow_le_iff {num den : Nat} (hden : 0 < den) (k : Int) :
    den * 2 ^ k.toNat ≤ num * 2 ^ (-k).toNat ↔ (2 : ℚ) ^ k ≤ (num : ℚ) / den := by
  have hden' : (0 : ℚ) < den := Nat.cast_pos.2 hden
  rw [zpow_eq_div two_ne_zero, div_le_div_iff₀ (by positivity) hden', mul_comm ((2 : ℚ) ^ k.toNat)]
  exact_mod_cast Iff.rfl

/-- **The exponent of the leading bit** is the logarithm of the quotient. -/
theorem binaryExponent_eq_log {num den : Nat} (hnum : 0 < num) (hden : 0 < den) :
    binaryExponent num den = Int.log 2 ((num : ℚ) / den) := by
  have hnum' : (0 : ℚ) < num := Nat.cast_pos.2 hnum
  have hden' : (0 : ℚ) < den := Nat.cast_pos.2 hden
  have hpos : (0 : ℚ) < (num : ℚ) / den := div_pos hnum' hden'
  set k : Int := (num.log2 : Int) - (den.log2 : Int) with hk
  have hnumLow : (2 : ℚ) ^ (num.log2 : Int) ≤ num := by
    exact_mod_cast Nat.log2_self_le hnum.ne'
  have hnumHigh : (num : ℚ) < 2 ^ ((num.log2 : Int) + 1) := by
    exact_mod_cast Nat.lt_log2_self
  have hdenLow : (2 : ℚ) ^ (den.log2 : Int) ≤ den := by
    exact_mod_cast Nat.log2_self_le hden.ne'
  have hdenHigh : (den : ℚ) < 2 ^ ((den.log2 : Int) + 1) := by
    exact_mod_cast Nat.lt_log2_self
  -- The two bit lengths leave two exponents to choose from.
  have hlow : k - 1 ≤ Int.log 2 ((num : ℚ) / den) := by
    rw [← Int.zpow_le_iff_le_log one_lt_two hpos, Nat.cast_ofNat, le_div_iff₀ hden']
    calc (2 : ℚ) ^ (k - 1) * den ≤ 2 ^ (k - 1) * 2 ^ ((den.log2 : Int) + 1) := by gcongr
      _ = 2 ^ (num.log2 : Int) := by
        rw [← zpow_add₀ two_ne_zero]
        congr 1
        omega
      _ ≤ num := hnumLow
  have hhigh : Int.log 2 ((num : ℚ) / den) < k + 1 := by
    rw [← Int.lt_zpow_iff_log_lt one_lt_two hpos, Nat.cast_ofNat, div_lt_iff₀ hden']
    calc (num : ℚ) < 2 ^ ((num.log2 : Int) + 1) := hnumHigh
      _ = 2 ^ (k + 1) * 2 ^ (den.log2 : Int) := by
        rw [← zpow_add₀ two_ne_zero]
        congr 1
        omega
      _ ≤ 2 ^ (k + 1) * den := by gcongr
  have htest : den * 2 ^ k.toNat ≤ num * 2 ^ (-k).toNat ↔ k ≤ Int.log 2 ((num : ℚ) / den) := by
    rw [mul_two_pow_le_iff hden, ← Int.zpow_le_iff_le_log one_lt_two hpos, Nat.cast_ofNat]
  change (if den * 2 ^ k.toNat ≤ num * 2 ^ (-k).toNat then k else k - 1) = _
  split
  · next h => exact le_antisymm (htest.1 h) (by omega)
  · next h =>
    have := mt htest.2 h
    omega

/-! ### Rounding to an integer -/

theorem roundHalfEven_mul_left {c : Nat} (hc : 0 < c) (num den : Nat) :
    roundHalfEven (c * num) (c * den) = roundHalfEven num den := by
  have hlt : ∀ a b : Nat, c * a < c * b ↔ a < b := fun a b => Nat.mul_lt_mul_left hc
  simp only [roundHalfEven, Nat.mul_div_mul_left _ _ hc, Nat.mul_mod_mul_left, hlt,
    Nat.mul_left_comm 2 c]

/-- What is an integer is not rounded. -/
theorem roundHalfEven_mul_self (q : Nat) {den : Nat} (hden : 0 < den) :
    roundHalfEven (q * den) den = q := by
  simp [roundHalfEven, hden]

/-- A quotient is rounded up by less than one. -/
theorem roundHalfEven_le (num den : Nat) : roundHalfEven num den ≤ num / den + 1 := by
  simp only [roundHalfEven]
  split
  · exact Nat.le_succ _
  · split
    · exact Nat.le_refl _
    · split
      · exact Nat.le_succ _
      · exact Nat.le_refl _

/-! ### Rounding to a magnitude -/

namespace Format

variable (f : Format)

/-- **A common factor** of numerator and denominator does not matter. -/
theorem nearest_mul_left {c den : Nat} (hc : 0 < c) (hden : 0 < den) (num : Nat) :
    f.nearest (c * num) (c * den) = f.nearest num den := by
  rcases Nat.eq_zero_or_pos num with rfl | hnum
  · simp [nearest]
  have hexponent : binaryExponent (c * num) (c * den) = binaryExponent num den := by
    have hc' : (c : ℚ) ≠ 0 := Nat.cast_ne_zero.2 hc.ne'
    rw [binaryExponent_eq_log (Nat.mul_pos hc hnum) (Nat.mul_pos hc hden),
      binaryExponent_eq_log hnum hden, Nat.cast_mul, Nat.cast_mul, mul_div_mul_left _ _ hc']
  have hzero : c * num ≠ 0 := (Nat.mul_pos hc hnum).ne'
  simp only [nearest, if_neg hnum.ne', if_neg hzero, hexponent, Nat.mul_assoc,
    roundHalfEven_mul_left hc]

theorem num_eq (n : Nat) : f.num n = f.significand n * 2 ^ (f.scale n).toNat := rfl

theorem den_eq (n : Nat) : f.den n = 2 ^ (-f.scale n).toNat := rfl

theorem den_pos (n : Nat) : 0 < f.den n := Nat.two_pow_pos _

/-- A magnitude is worth the quotient of its numerator and its denominator. -/
theorem num_div_den (n : Nat) : (f.num n : ℚ) / f.den n = f.value n := by
  rw [value, num_eq, den_eq, zpow_eq_div two_ne_zero]
  push_cast
  ring

theorem value_pos {n : Nat} (hn : n ≠ 0) : 0 < f.value n :=
  f.value_zero ▸ f.strictMono_value (Nat.pos_of_ne_zero hn)

theorem num_pos {n : Nat} (hn : n ≠ 0) : 0 < f.num n := by
  have hvalue := f.value_pos hn
  rw [← f.num_div_den n] at hvalue
  by_contra hzero
  rw [Nat.eq_zero_of_not_pos hzero, Nat.cast_zero, zero_div] at hvalue
  exact lt_irrefl _ hvalue

/-- The scale of a magnitude is the one that its value is rounded on. -/
theorem max_minScale_eq_scale {n : Nat} (hn : n ≠ 0) :
    max f.minScale (binaryExponent (f.num n) (f.den n) - f.fractionBits) = f.scale n := by
  have hvalue := f.value_pos hn
  rw [binaryExponent_eq_log (f.num_pos hn) (f.den_pos n), num_div_den]
  by_cases hcode : f.code n = 0
  · have hscale : f.scale n = f.minScale := by
      rw [scale_eq, hcode]
      simp
    have hlt : f.value n < 2 ^ (f.fractionBits + f.minScale) := by
      have hn' : (n : ℚ) < 2 ^ f.fractionBits := by exact_mod_cast f.lt_of_code_eq_zero hcode
      rw [value, f.significand_of_code_eq_zero hcode, hscale, zpow_add₀ two_ne_zero, zpow_natCast]
      exact mul_lt_mul_of_pos_right hn' (by positivity)
    have hlog : Int.log 2 (f.value n) < f.fractionBits + f.minScale :=
      (Int.lt_zpow_iff_log_lt one_lt_two hvalue).1 (by exact_mod_cast hlt)
    omega
  · have hmod := f.mod_lt n
    have hlow : (2 : ℚ) ^ (f.fractionBits + f.scale n) ≤ f.value n := by
      rw [value, f.significand_of_code_ne_zero hcode, zpow_add₀ two_ne_zero, zpow_natCast]
      refine mul_le_mul_of_nonneg_right ?_ (by positivity)
      exact_mod_cast Nat.le_add_right _ _
    have hhigh : f.value n < 2 ^ (f.fractionBits + f.scale n + 1) := by
      have hsignificand :
          2 ^ f.fractionBits + n % 2 ^ f.fractionBits < 2 ^ f.fractionBits * 2 := by omega
      rw [value, f.significand_of_code_ne_zero hcode, add_right_comm, zpow_add₀ two_ne_zero,
        zpow_add₀ two_ne_zero, zpow_natCast, zpow_one]
      refine mul_lt_mul_of_pos_right ?_ (by positivity)
      exact_mod_cast hsignificand
    have hle : f.fractionBits + f.scale n ≤ Int.log 2 (f.value n) :=
      (Int.zpow_le_iff_le_log one_lt_two hvalue).1 (by exact_mod_cast hlow)
    have hlt : Int.log 2 (f.value n) < f.fractionBits + f.scale n + 1 :=
      (Int.lt_zpow_iff_log_lt one_lt_two hvalue).1 (by exact_mod_cast hhigh)
    have hscale := f.scale_eq n
    omega

/-- **Magnitudes are their own nearest magnitudes.** -/
theorem nearest_num_den (n : Nat) : f.nearest (f.num n) (f.den n) = n := by
  by_cases hn : n = 0
  · subst hn
    have hzero : f.num 0 = 0 := by
      rw [num_eq, f.significand_of_code_eq_zero (Nat.zero_div _), Nat.zero_mul]
    simp [nearest, hzero]
  have hnum : f.num n ≠ 0 := (f.num_pos hn).ne'
  have hexact : roundHalfEven (f.num n * 2 ^ (-f.scale n).toNat)
      (f.den n * 2 ^ (f.scale n).toNat) = f.significand n := by
    have hsplit : f.num n * 2 ^ (-f.scale n).toNat =
        f.significand n * (f.den n * 2 ^ (f.scale n).toNat) := by
      rw [num_eq, den_eq]
      ring
    rw [hsplit, roundHalfEven_mul_self _ (Nat.mul_pos (f.den_pos n) (Nat.two_pow_pos _))]
  have hcodes : (f.scale n - f.minScale).toNat = f.code n - 1 := by
    have hscale := f.scale_eq n
    omega
  have hsum : (f.code n - 1) * 2 ^ f.fractionBits + f.significand n = n := by
    have hn' := f.code_mul_add_mod n
    by_cases hcode : f.code n = 0
    · rw [f.significand_of_code_eq_zero hcode, hcode]
      simp
    · obtain ⟨c, hc⟩ := Nat.exists_eq_succ_of_ne_zero hcode
      rw [f.significand_of_code_ne_zero hcode]
      rw [hc] at hn' ⊢
      rw [Nat.succ_sub_one, Nat.succ_eq_add_one, Nat.mul_add_one] at *
      rw [Nat.mul_comm c]
      omega
  calc f.nearest (f.num n) (f.den n)
      = (f.scale n - f.minScale).toNat * 2 ^ f.fractionBits +
          roundHalfEven (f.num n * 2 ^ (-f.scale n).toNat) (f.den n * 2 ^ (f.scale n).toNat) := by
        rw [nearest, if_neg hnum, f.max_minScale_eq_scale hn]
        rfl
    _ = n := by rw [hexact, hcodes, hsum]

/-! ### Integers -/

/-- What 64 bits hold is far from what is too large for the format. -/
theorem nearest_double_lt_size {n : Nat} (h : n < 2 ^ 64) :
    double.nearest n 1 < double.size := by
  rcases Nat.eq_zero_or_pos n with rfl | hn
  · decide
  have hexponent : binaryExponent n 1 = Nat.log 2 n := by
    rw [binaryExponent_eq_log hn Nat.one_pos, Nat.cast_one, div_one, Int.log_natCast]
  have hhigh : n < 2 ^ (Nat.log 2 n + 1) := Nat.lt_pow_succ_log_self Nat.one_lt_two n
  have hlog : Nat.log 2 n < 64 := Nat.log_lt_of_lt_pow hn.ne' h
  generalize Nat.log 2 n = k at hexponent hhigh hlog
  have hnearest : double.nearest n 1 =
      ((k : Int) - 52 + 1074).toNat * 2 ^ 52 +
        roundHalfEven (n * 2 ^ (52 - k)) (1 * 2 ^ (k - 52)) := by
    have hscale : max Format.double.minScale (binaryExponent n 1 - Format.double.fractionBits) =
        (k : Int) - 52 := by
      rw [hexponent]
      exact max_eq_right (by change (-1074 : Int) ≤ (k : Int) - (52 : Nat); omega)
    have hneg : (-((k : Int) - 52)).toNat = 52 - k := by omega
    have hpos : ((k : Int) - 52).toNat = k - 52 := by omega
    rw [Format.nearest, if_neg hn.ne', hscale]
    simp only [hneg, hpos]
    rfl
  have hquotient : n * 2 ^ (52 - k) / (1 * 2 ^ (k - 52)) < 2 ^ 53 := by
    rw [Nat.one_mul]
    apply Nat.div_lt_of_lt_mul
    calc n * 2 ^ (52 - k) < 2 ^ (k + 1) * 2 ^ (52 - k) :=
          Nat.mul_lt_mul_of_pos_right hhigh (Nat.two_pow_pos _)
      _ = 2 ^ (k - 52) * 2 ^ 53 := by
          rw [← pow_add, ← pow_add]
          congr 1
          omega
  have hround := roundHalfEven_le (n * 2 ^ (52 - k)) (1 * 2 ^ (k - 52))
  have hsize : Format.double.size = 2047 * 2 ^ 52 := rfl
  rw [hnearest, hsize]
  omega

end Format

theorem Binary.isFinite_ofInt {i : Int} (h : i.natAbs < 2 ^ 64) :
    (ofInt i : Double).isFinite = true := by
  rw [ofInt, ofRatio, dif_pos (Format.nearest_double_lt_size h)]
  rfl

end Rulebook
