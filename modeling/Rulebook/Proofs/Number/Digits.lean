import Rulebook.Number.Decimal
import Rulebook.Proofs.Number.Rounding

/-!
# The digits of a number read back to it

A number is written with the fewest digits that identify it. They are searched for on coarser and
finer grids, and only what passes the test of being read back is taken; should nothing pass, the
exact value is. So the digits read back to the number in any case, once two things are known: the
exact value does, and taking zeros off the end changes no reading.

* `Rulebook.Decimal.nearest_shift` – **zeros behind the digits** do not change the reading;
* `Rulebook.Decimal.nearest_exact` – the **exact value** reads back to the number;
* `Rulebook.Decimal.nearest_shortest` – the **digits found** read back to the number.
-/

namespace Rulebook

/-! ### Zeros behind the digits -/

/-- A natural number and ten times it are written with the same digits, but for a zero. -/
theorem toDigits_mul_ten {n : Nat} (hn : 0 < n) :
    Nat.toDigits 10 (n * 10) = Nat.toDigits 10 n ++ ['0'] := by
  have hten : Nat.toDigits 10 (n * 10) = Nat.toDigits 10 n ++ Nat.toDigits 10 0 := by
    rw [Nat.toDigits_append_toDigits (by decide) hn (by decide), Nat.add_zero, Nat.mul_comm]
  exact hten

theorem toDigits_mul_ten_pow {n : Nat} (hn : 0 < n) (k : Nat) :
    Nat.toDigits 10 (n * 10 ^ k) = Nat.toDigits 10 n ++ List.replicate k '0' := by
  induction k with
  | zero => simp
  | succ k ih =>
    have hpos : 0 < n * 10 ^ k := Nat.mul_pos hn (Nat.pow_pos (by decide))
    rw [Nat.pow_succ, ← Nat.mul_assoc, toDigits_mul_ten hpos, ih, List.append_assoc,
      List.replicate_succ']

namespace Decimal

variable {f : Format}

theorem digitCount_mul_ten {n : Nat} (hn : 0 < n) : digitCount (n * 10) = digitCount n + 1 := by
  rw [digitCount, digitCount, if_neg (by omega), if_neg (by omega), toDigits_mul_ten hn,
    List.length_append]
  rfl

/-- With a zero behind the digits and the exponent one less, the quotient is the same. -/
theorem ofRatio_mul_ten (negative : Bool) (d : Nat) (e : Int) :
    (Binary.ofRatio negative (num ⟨d * 10, e⟩) (den ⟨d * 10, e⟩) : Binary f) =
      .ofRatio negative (num ⟨d, e + 1⟩) (den ⟨d, e + 1⟩) := by
  by_cases he : 0 ≤ e
  · have hnum : num ⟨d * 10, e⟩ = num ⟨d, e + 1⟩ := by
      have hsucc : (e + 1).toNat = e.toNat + 1 := by omega
      change d * 10 * 10 ^ e.toNat = d * 10 ^ (e + 1).toNat
      rw [hsucc]
      ring
    have hden : den ⟨d * 10, e⟩ = den ⟨d, e + 1⟩ := by
      change 10 ^ (-e).toNat = 10 ^ (-(e + 1)).toNat
      congr 1
      omega
    rw [hnum, hden]
  · have hnum : num ⟨d * 10, e⟩ = 10 * num ⟨d, e + 1⟩ := by
      have hzero : e.toNat = 0 ∧ (e + 1).toNat = 0 := by omega
      change d * 10 * 10 ^ e.toNat = 10 * (d * 10 ^ (e + 1).toNat)
      rw [hzero.1, hzero.2]
      ring
    have hden : den ⟨d * 10, e⟩ = 10 * den ⟨d, e + 1⟩ := by
      have hsucc : (-e).toNat = (-(e + 1)).toNat + 1 := by omega
      change 10 ^ (-e).toNat = 10 * 10 ^ (-(e + 1)).toNat
      rw [hsucc]
      ring
    have hpos : 0 < den ⟨d, e + 1⟩ := Nat.pow_pos (by decide)
    simp only [Binary.ofRatio, hnum, hden, f.nearest_mul_left (Nat.succ_pos 9) hpos]

theorem nearest_mul_ten (negative : Bool) (d : Nat) (e : Int) :
    (nearest negative ⟨d * 10, e⟩ : Binary f) = nearest negative ⟨d, e + 1⟩ := by
  rcases Nat.eq_zero_or_pos d with rfl | hd
  · simp [nearest]
  have hlead : e + (digitCount (d * 10) : Int) = e + 1 + digitCount d := by
    rw [digitCount_mul_ten hd]
    omega
  have hzero : d * 10 = 0 ↔ d = 0 := by omega
  simp only [nearest, hlead, hzero, ofRatio_mul_ten]

/-- **Zeros behind the digits** do not change the reading if the exponent makes up for them. -/
theorem nearest_shift (negative : Bool) (d k : Nat) (e : Int) :
    (nearest negative ⟨d * 10 ^ k, e⟩ : Binary f) = nearest negative ⟨d, e + k⟩ := by
  induction k generalizing e with
  | zero => simp
  | succ k ih =>
    have hexponent : e + 1 + (k : Int) = e + (k + 1 : Nat) := by omega
    rw [Nat.pow_succ, ← Nat.mul_assoc, nearest_mul_ten, ih, hexponent]

theorem nearest_strip (negative : Bool) (d : Decimal) :
    (nearest negative d.strip : Binary f) = nearest negative d := by
  induction d using strip.induct with
  | case1 d h ih =>
    have hten : d.digits / 10 * 10 = d.digits := by omega
    rw [strip, dif_pos h, ih, ← nearest_mul_ten, hten]
  | case2 d h => rw [strip, dif_neg h]

/-! ### The digits that are found -/

theorem ofRatio_eq_finite {s : Bool} {num den : Nat} {m : Fin f.size}
    (h : Binary.ofRatio s num den = .finite s m) (t : Bool) :
    Binary.ofRatio t num den = .finite t m := by
  unfold Binary.ofRatio at *
  split
  · next hlt =>
    rw [dif_pos hlt] at h
    injection h with _ hm
    rw [hm]
  · next hge =>
    rw [dif_neg hge] at h
    cases h

/-- The sign of what is read is the one that is asked for, and it does not matter otherwise. -/
theorem nearest_eq_finite {s : Bool} {m : Fin f.size} {d : Decimal}
    (h : nearest s d = .finite s m) (t : Bool) : nearest t d = .finite t m := by
  unfold nearest at *
  dsimp only at *
  split
  · next hzero =>
    rw [if_pos hzero] at h
    exact ofRatio_eq_finite h t
  · next hzero =>
    rw [if_neg hzero] at h
    split
    · next hlarge =>
      rw [if_pos hlarge] at h
      cases h
    · next hlarge =>
      rw [if_neg hlarge] at h
      exact ofRatio_eq_finite h t

/-- What stands for a number on a grid has passed the test. -/
theorem passes_of_onGrid {tie : Tie} {num den : Nat} {passes : Decimal → Bool} {p : Int}
    {d : Decimal} (h : onGrid tie num den passes p = some d) : passes d = true := by
  unfold onGrid at h
  grind

/-- The exact value has the quotient of the magnitude. -/
theorem ofRatio_exact (negative : Bool) (n : Nat) :
    (Binary.ofRatio negative (exact (f.significand n) (f.scale n)).num
      (exact (f.significand n) (f.scale n)).den : Binary f) =
      .ofRatio negative (f.num n) (f.den n) := by
  by_cases hscale : f.scale n < 0
  · have hfive : 0 < 5 ^ (-f.scale n).toNat := Nat.pow_pos (by decide)
    have hnum : (exact (f.significand n) (f.scale n)).num = 5 ^ (-f.scale n).toNat * f.num n := by
      have hzero : (f.scale n).toNat = 0 := by omega
      rw [num, exact, if_pos hscale, f.num_eq, hzero]
      simp [Nat.mul_comm]
    have hden : (exact (f.significand n) (f.scale n)).den = 5 ^ (-f.scale n).toNat * f.den n := by
      rw [den, exact, if_pos hscale, f.den_eq, ← Nat.mul_pow]
      rfl
    simp only [Binary.ofRatio, hnum, hden, f.nearest_mul_left hfive (f.den_pos n)]
  · have hzero : (-f.scale n).toNat = 0 := by omega
    have hnum : (exact (f.significand n) (f.scale n)).num = f.num n := by
      rw [num, exact, if_neg hscale, f.num_eq, hzero]
      simp
    have hden : (exact (f.significand n) (f.scale n)).den = f.den n := by
      rw [den, exact, if_neg hscale, f.den_eq, hzero]
      rfl
    rw [hnum, hden]

theorem digitCount_le_iff {n k : Nat} (hk : 0 < k) : digitCount n ≤ k ↔ n < 10 ^ k := by
  rw [digitCount]
  split
  · next hn => exact iff_of_true (Nat.zero_le k) (hn ▸ Nat.pow_pos (by decide))
  · exact Nat.length_toDigits_le_iff (by decide) hk

theorem le_digitCount {n k : Nat} (h : 10 ^ k ≤ n) : k ≤ digitCount n := by
  rcases Nat.eq_zero_or_pos k with rfl | hk
  · exact Nat.zero_le _
  · by_contra hlt
    have hn := (digitCount_le_iff hk).1 (Nat.le_of_not_le hlt)
    omega

end Decimal

/-! ### Numbers of 64 bits -/

namespace Format

theorem significand_lt (f : Format) (n : Nat) : f.significand n < 2 ^ (f.fractionBits + 1) := by
  have hmod := f.mod_lt n
  have hpow : 2 ^ (f.fractionBits + 1) = 2 ^ f.fractionBits * 2 := Nat.pow_succ ..
  by_cases hcode : f.code n = 0
  · have hn := f.lt_of_code_eq_zero hcode
    rw [f.significand_of_code_eq_zero hcode]
    omega
  · rw [f.significand_of_code_ne_zero hcode]
    omega

theorem scale_double_mem (m : Fin double.size) :
    -1074 ≤ double.scale m ∧ double.scale m ≤ 971 := by
  have hm : m.val < 2047 * 2 ^ 52 := m.isLt
  have hscale := double.scale_eq m.val
  have hcode : double.code m.val = m.val / 2 ^ 52 := rfl
  have hmin : double.minScale = -1074 := rfl
  omega

end Format

namespace Decimal

/-- A power of two is below a power of a larger base if the bits of the base make up for it. -/
theorem two_pow_le_pow {b e k r : Nat} (hb : 2 ^ e ≤ b) (hk : k ≤ e * r) : 2 ^ k ≤ b ^ r := calc
  2 ^ k ≤ 2 ^ (e * r) := Nat.pow_le_pow_right (by decide) hk
  _ = (2 ^ e) ^ r := Nat.pow_mul ..
  _ ≤ b ^ r := Nat.pow_le_pow_left hb r

/-- With the significands and scales of 64 bits, exact values are within the reach of the
reading. -/
theorem lead_exact_mem {c : Nat} {k : Int} (hpos : 0 < c) (hc : c < 2 ^ 53) (hlow : -1074 ≤ k)
    (hhigh : k ≤ 971) :
    -(reach : Int) ≤ (exact c k).exponent + digitCount (exact c k).digits ∧
      (exact c k).exponent + digitCount (exact c k).digits ≤ reach := by
  obtain ⟨r, hr⟩ : ∃ r, r = reach := ⟨_, rfl⟩
  have hreach : r = 400 := hr
  rw [← hr]
  by_cases hk : k < 0
  · obtain ⟨j, rfl⟩ : ∃ j : Nat, k = -j := ⟨(-k).toNat, by omega⟩
    have hdigits : (exact c (-j)).digits = c * 5 ^ j := by simp [exact]
    have hexponent : (exact c (-j)).exponent = -j := if_pos hk
    have hupper : c * 5 ^ j < 10 ^ (r + j) := calc
      c * 5 ^ j < 2 ^ 53 * 5 ^ j := Nat.mul_lt_mul_of_pos_right hc (Nat.pow_pos (by decide))
      _ ≤ 10 ^ r * 10 ^ j :=
        Nat.mul_le_mul (two_pow_le_pow (e := 3) (by decide) (by omega))
          (Nat.pow_le_pow_left (by decide) j)
      _ = 10 ^ (r + j) := by rw [Nat.pow_add]
    have hlower : 10 ^ (j - r) ≤ c * 5 ^ j := by
      rcases Nat.le_total j r with hle | hle
      · rw [Nat.sub_eq_zero_of_le hle, Nat.pow_zero]
        exact Nat.mul_pos hpos (Nat.pow_pos (by decide))
      obtain ⟨i, rfl⟩ := Nat.exists_eq_add_of_le hle
      rw [Nat.add_sub_cancel_left]
      calc 10 ^ i = 2 ^ i * 5 ^ i := Nat.mul_pow 2 5 i
        _ ≤ 5 ^ r * 5 ^ i :=
          Nat.mul_le_mul_right _ (two_pow_le_pow (e := 2) (by decide) (by omega))
        _ = 5 ^ (r + i) := by rw [Nat.pow_add]
        _ ≤ c * 5 ^ (r + i) := Nat.le_mul_of_pos_left _ hpos
    have hmost := (digitCount_le_iff (by omega)).2 hupper
    have hleast := le_digitCount hlower
    rw [hdigits, hexponent]
    omega
  · obtain ⟨j, rfl⟩ : ∃ j : Nat, k = j := ⟨k.toNat, by omega⟩
    have hdigits : (exact c j).digits = c * 2 ^ j := by simp [exact]
    have hexponent : (exact c j).exponent = 0 := by simp [exact, hk]
    have hupper : c * 2 ^ j < 10 ^ r := calc
      c * 2 ^ j < 2 ^ 53 * 2 ^ j := Nat.mul_lt_mul_of_pos_right hc (Nat.pow_pos (by decide))
      _ = 2 ^ (53 + j) := by rw [Nat.pow_add]
      _ ≤ 10 ^ r := two_pow_le_pow (e := 3) (by decide) (by omega)
    have hmost := (digitCount_le_iff (by omega)).2 hupper
    rw [hdigits, hexponent]
    omega

/-- **The exact value of a number of 64 bits** is read back. -/
theorem nearest_exact {m : Fin Format.double.size} (hm : m.val ≠ 0) :
    nearest false (exact (Format.double.significand m) (Format.double.scale m)) =
      .finite false m := by
  have hnum := Format.double.num_pos hm
  have hpos : 0 < Format.double.significand m := Nat.pos_of_mul_pos_right hnum
  obtain ⟨hscaleLow, hscaleHigh⟩ := Format.scale_double_mem m
  obtain ⟨hlow, hhigh⟩ :=
    lead_exact_mem hpos (Format.double.significand_lt m) hscaleLow hscaleHigh
  have hdigits : (exact (Format.double.significand m) (Format.double.scale m)).digits ≠ 0 :=
    (Nat.mul_pos (Nat.mul_pos hpos (Nat.two_pow_pos _)) (Nat.pow_pos (by decide))).ne'
  have hcases : ¬((exact (Format.double.significand m) (Format.double.scale m)).digits = 0 ∨
      (exact (Format.double.significand m) (Format.double.scale m)).exponent +
        digitCount (exact (Format.double.significand m) (Format.double.scale m)).digits <
        -(reach : Int)) := by
    rintro (hzero | hsmall)
    · exact hdigits hzero
    · omega
  have hlt : Format.double.nearest (Format.double.num m) (Format.double.den m) <
      Format.double.size := by
    rw [Format.nearest_num_den]
    exact m.isLt
  rw [nearest, if_neg hcases, if_neg (by omega), ofRatio_exact, Binary.ofRatio, dif_pos hlt]
  simp only [Format.nearest_num_den]

/-- **The digits found** for a number of 64 bits read back to the number. -/
theorem nearest_shortest (tie : Tie) (negative : Bool) (m : Fin Format.double.size) :
    nearest negative (shortest tie m) = .finite negative m := by
  by_cases hm : m.val = 0
  · have hzero : m = ⟨0, by decide⟩ := Fin.ext hm
    rw [shortest, if_pos hm, hzero]
    cases negative <;> decide
  · refine nearest_eq_finite (s := false) ?_ negative
    rw [shortest, if_neg hm, nearest_strip]
    cases hfound : List.findSome? _ _ with
    | none => exact nearest_exact hm
    | some d =>
      obtain ⟨p, -, hp⟩ := List.exists_of_findSome?_eq_some hfound
      have hpasses : readsBack m d = true := passes_of_onGrid hp
      exact of_decide_eq_true hpasses

end Decimal

end Rulebook
