import Rulebook.Proofs.Number.Rounding

/-!
# Rounding keeps the order

A larger quotient is rounded to a magnitude that is no smaller. Within a scale this is so because
rounding to an integer keeps the order, and from a scale to the next one because a significand is
rounded up to the least one of the next scale at most.

What follows is that rounding depends on the quotient only, that the ranks of the nearest numbers go
up with the rationals that they are nearest to, and that a magnitude that is nearest to a natural
number is worth a natural number itself: up to `2 ^ 53` the natural numbers are worth magnitudes,
and from there on the magnitudes have no fractions.

* `Rulebook.roundHalfEven_le_iff` – what is rounded to **at most an integer**;
* `Rulebook.Format.nearest_mono` – **rounding keeps the order**;
* `Rulebook.Format.monotone_roundedRank` – and so do the ranks of what is rounded to;
* `Rulebook.Format.exists_value_nearest_eq` – **what natural numbers are rounded to**.
-/

namespace Rulebook

/-! ### Rounding to an integer -/

section Integers

variable {num den num' den' : Nat}

/-- **What is rounded to at most an integer**: what is below the half above it, and the half itself
if the integer is even. -/
theorem roundHalfEven_le_iff (hden : 0 < den) (r : Nat) :
    roundHalfEven num den ≤ r ↔
      2 * num < (2 * r + 1) * den ∨ 2 * num = (2 * r + 1) * den ∧ r % 2 = 0 := by
  have hsum := Nat.div_add_mod num den
  have hmod := Nat.mod_lt num hden
  simp only [roundHalfEven]
  generalize num / den = q at *
  generalize num % den = rest at *
  have hodd : (2 * r + 1) * den = 2 * (den * r) + den := by ring
  rcases Nat.lt_trichotomy r q with hr | rfl | hr
  · have hstep : den * r + den ≤ den * q := Nat.mul_le_mul_left den hr
    split_ifs <;> omega
  · split_ifs <;> omega
  · have hstep : den * q + den ≤ den * r := Nat.mul_le_mul_left den hr
    split_ifs <;> omega

/-- Rounding to an integer keeps the order. -/
theorem roundHalfEven_mono (hden : 0 < den) (hden' : 0 < den')
    (h : (num : ℚ) / den ≤ (num' : ℚ) / den') :
    roundHalfEven num den ≤ roundHalfEven num' den' := by
  have hcross : num * den' ≤ num' * den := by
    rw [div_le_div_iff₀ (Nat.cast_pos.2 hden) (Nat.cast_pos.2 hden')] at h
    exact_mod_cast h
  rw [roundHalfEven_le_iff hden]
  -- The larger quotient is on this side of the half, so the smaller one is.
  have hround := (@roundHalfEven_le_iff num' den' hden' (roundHalfEven num' den')).1 le_rfl
  generalize roundHalfEven num' den' = r at hround ⊢
  rcases hround with hlt | ⟨heq, heven⟩
  · refine Or.inl (lt_of_mul_lt_mul_right ?_ (Nat.zero_le den'))
    calc 2 * num * den' = 2 * (num * den') := by ring
      _ ≤ 2 * (num' * den) := Nat.mul_le_mul_left 2 hcross
      _ = 2 * num' * den := by ring
      _ < (2 * r + 1) * den' * den := Nat.mul_lt_mul_of_pos_right hlt hden
      _ = (2 * r + 1) * den * den' := by ring
  · have hle : 2 * num ≤ (2 * r + 1) * den := by
      refine le_of_mul_le_mul_right ?_ hden'
      calc 2 * num * den' = 2 * (num * den') := by ring
        _ ≤ 2 * (num' * den) := Nat.mul_le_mul_left 2 hcross
        _ = 2 * num' * den := by ring
        _ = (2 * r + 1) * den * den' := by rw [heq]; ring
    rcases Nat.lt_or_eq_of_le hle with hlt | heq'
    · exact Or.inl hlt
    · exact Or.inr ⟨heq', heven⟩

theorem roundHalfEven_one (r : Nat) : roundHalfEven r 1 = r := by
  simpa using roundHalfEven_mul_self r Nat.one_pos

theorem roundHalfEven_le_of_div_le (hden : 0 < den) {r : Nat} (h : (num : ℚ) / den ≤ r) :
    roundHalfEven num den ≤ r := by
  rw [← roundHalfEven_one r]
  exact roundHalfEven_mono hden Nat.one_pos (by simpa using h)

theorem le_roundHalfEven_of_le_div (hden : 0 < den) {r : Nat} (h : (r : ℚ) ≤ (num : ℚ) / den) :
    r ≤ roundHalfEven num den := by
  rw [← roundHalfEven_one r]
  exact roundHalfEven_mono Nat.one_pos hden (by simpa using h)

end Integers

/-! ### Rounding to a magnitude -/

namespace Format

variable (f : Format) {num den num' den' : Nat}

/-- The scale that a positive rational is rounded on. -/
def scaleOf (q : ℚ) : Int := max f.minScale (Int.log 2 q - f.fractionBits)

/-- The magnitude nearest to a quotient, by the scale of the quotient. -/
theorem nearest_eq (hnum : 0 < num) (hden : 0 < den) {s : Int} (hs : s = f.scaleOf (num / den)) :
    f.nearest num den = (s - f.minScale).toNat * 2 ^ f.fractionBits +
      roundHalfEven (num * 2 ^ (-s).toNat) (den * 2 ^ s.toNat) := by
  rw [hs, scaleOf, ← binaryExponent_eq_log hnum hden, nearest, if_neg hnum.ne']
  rfl

/-- The quotient that is rounded on a scale. -/
theorem scaled_div (num den : Nat) (s : Int) :
    ((num * 2 ^ (-s).toNat : Nat) : ℚ) / ((den * 2 ^ s.toNat : Nat) : ℚ) = num / den / 2 ^ s := by
  rw [zpow_eq_div two_ne_zero]
  push_cast
  field_simp

/-- The significand on a scale is at most the least one of the next scale. -/
theorem div_two_pow_scaleOf_le (q : ℚ) :
    q / 2 ^ f.scaleOf q ≤ 2 ^ (f.fractionBits + 1) := by
  have hlog : Int.log 2 q + 1 ≤ f.fractionBits + 1 + f.scaleOf q := by
    rw [scaleOf]
    omega
  rw [div_le_iff₀ (by positivity)]
  calc q ≤ (2 : ℚ) ^ (Int.log 2 q + 1) := by
        exact_mod_cast (Int.lt_zpow_succ_log_self one_lt_two q).le
    _ ≤ 2 ^ ((f.fractionBits + 1 : Int) + f.scaleOf q) := zpow_le_zpow_right₀ one_le_two hlog
    _ = 2 ^ (f.fractionBits + 1) * 2 ^ f.scaleOf q := by
        rw [zpow_add₀ two_ne_zero]
        norm_cast

/-- Above the least scale the significand has all of its bits. -/
theorem le_div_two_pow_scaleOf {q : ℚ} (hq : 0 < q) (h : f.minScale < f.scaleOf q) :
    2 ^ f.fractionBits ≤ q / 2 ^ f.scaleOf q := by
  have hlog : f.fractionBits + f.scaleOf q = Int.log 2 q := by
    rw [scaleOf] at *
    omega
  rw [le_div_iff₀ (by positivity)]
  calc (2 : ℚ) ^ f.fractionBits * 2 ^ f.scaleOf q = 2 ^ (f.fractionBits + f.scaleOf q) := by
        rw [zpow_add₀ two_ne_zero, zpow_natCast]
    _ = 2 ^ Int.log 2 q := by rw [hlog]
    _ ≤ q := by exact_mod_cast Int.zpow_log_le_self one_lt_two hq

/-- **Rounding keeps the order.** -/
theorem nearest_mono (hden : 0 < den) (hden' : 0 < den')
    (h : (num : ℚ) / den ≤ (num' : ℚ) / den') : f.nearest num den ≤ f.nearest num' den' := by
  rcases Nat.eq_zero_or_pos num with rfl | hnum
  · simp [nearest]
  have hq : (0 : ℚ) < num / den := div_pos (Nat.cast_pos.2 hnum) (Nat.cast_pos.2 hden)
  have hq' : (0 : ℚ) < num' / den' := lt_of_lt_of_le hq h
  have hnum' : 0 < num' := by
    refine Nat.pos_of_ne_zero fun hzero => ?_
    rw [hzero, Nat.cast_zero, zero_div] at hq'
    exact lt_irrefl 0 hq'
  have hle : f.scaleOf (num / den) ≤ f.scaleOf (num' / den') :=
    max_le_max le_rfl (Int.sub_le_sub_right (Int.log_mono_right hq h) _)
  rw [f.nearest_eq hnum hden rfl, f.nearest_eq hnum' hden' rfl]
  have hupper := f.div_two_pow_scaleOf_le (num / den)
  have hlower := f.le_div_two_pow_scaleOf hq'
  have hmin : f.minScale ≤ f.scaleOf (num / den) := le_max_left _ _
  generalize f.scaleOf (num / den) = s at *
  generalize f.scaleOf (num' / den') = s' at *
  have hpos : 0 < den * 2 ^ s.toNat := Nat.mul_pos hden (Nat.two_pow_pos _)
  have hpos' : 0 < den' * 2 ^ s'.toNat := Nat.mul_pos hden' (Nat.two_pow_pos _)
  rcases hle.lt_or_eq with hlt | rfl
  · have hround : roundHalfEven (num * 2 ^ (-s).toNat) (den * 2 ^ s.toNat) ≤
        2 ^ (f.fractionBits + 1) :=
      roundHalfEven_le_of_div_le hpos (by rw [scaled_div]; exact_mod_cast hupper)
    have hround' : 2 ^ f.fractionBits ≤
        roundHalfEven (num' * 2 ^ (-s').toNat) (den' * 2 ^ s'.toNat) :=
      le_roundHalfEven_of_le_div hpos'
        (by rw [scaled_div]; exact_mod_cast hlower (lt_of_le_of_lt hmin hlt))
    have hcodes : (s - f.minScale).toNat + 1 ≤ (s' - f.minScale).toNat := by omega
    calc (s - f.minScale).toNat * 2 ^ f.fractionBits +
          roundHalfEven (num * 2 ^ (-s).toNat) (den * 2 ^ s.toNat)
        ≤ (s - f.minScale).toNat * 2 ^ f.fractionBits + 2 ^ (f.fractionBits + 1) :=
          Nat.add_le_add_left hround _
      _ = ((s - f.minScale).toNat + 1) * 2 ^ f.fractionBits + 2 ^ f.fractionBits := by ring
      _ ≤ (s' - f.minScale).toNat * 2 ^ f.fractionBits +
          roundHalfEven (num' * 2 ^ (-s').toNat) (den' * 2 ^ s'.toNat) :=
        Nat.add_le_add (Nat.mul_le_mul_right _ hcodes) hround'
  · refine Nat.add_le_add_left (roundHalfEven_mono hpos hpos' ?_) _
    rw [scaled_div, scaled_div]
    gcongr

/-- A quotient that a magnitude is worth is rounded to that magnitude. -/
theorem nearest_of_value_eq (hden : 0 < den) {n : Nat} (h : f.value n = num / den) :
    f.nearest num den = n := by
  rw [← f.num_div_den] at h
  rw [← f.nearest_num_den n]
  exact le_antisymm (f.nearest_mono hden (f.den_pos n) h.ge)
    (f.nearest_mono (f.den_pos n) hden h.le)

/-- A magnitude with a positive value is not the least one. -/
theorem pos_of_value_pos {n : Nat} (h : 0 < f.value n) : 0 < n := by
  refine Nat.pos_of_ne_zero fun hzero => ?_
  rw [hzero, value_zero] at h
  exact lt_irrefl 0 h

theorem nearest_le_nearest_one {k l : Nat} (h : k ≤ l) : f.nearest k 1 ≤ f.nearest l 1 :=
  f.nearest_mono Nat.one_pos Nat.one_pos (by simpa using h)

/-! ### Ranks of rationals -/

/-- **The rank of the number nearest to a rational.** -/
def nearestRank (q : ℚ) : Int :=
  if q < 0 then -(f.nearest q.num.natAbs q.den : Int) else f.nearest q.num.natAbs q.den

theorem natAbs_num_div_den (q : ℚ) : (q.num.natAbs : ℚ) / q.den = |q| := by
  rw [Nat.cast_natAbs, Int.cast_abs, ← Nat.abs_cast q.den, ← abs_div, Rat.num_div_den]

/-- **Ranks of nearest numbers** go up with the rationals. -/
theorem monotone_nearestRank : Monotone f.nearestRank := by
  intro a b h
  have hmono : ∀ {p q : ℚ}, |p| ≤ |q| →
      f.nearest p.num.natAbs p.den ≤ f.nearest q.num.natAbs q.den := by
    intro p q hle
    refine f.nearest_mono p.den_pos q.den_pos ?_
    rw [natAbs_num_div_den, natAbs_num_div_den]
    exact hle
  unfold nearestRank
  by_cases ha : a < 0
  · by_cases hb : b < 0
    · rw [if_pos ha, if_pos hb, Int.neg_le_neg_iff]
      exact_mod_cast hmono (abs_le_abs_of_nonpos hb.le h)
    · rw [if_pos ha, if_neg hb]
      omega
  · rw [if_neg ha, if_neg (by linarith)]
    exact_mod_cast hmono (abs_le_abs_of_nonneg (not_lt.1 ha) h)

/-- A finite number is nearest to its value. -/
theorem nearestRank_signedValue {f : Format} (s : Bool) (m : Fin f.size) :
    f.nearestRank (Binary.signedValue s m) = Binary.signedRank s m := by
  have hnearest :
      f.nearest (Binary.signedValue s m).num.natAbs (Binary.signedValue s m).den = m := by
    refine f.nearest_of_value_eq (Rat.den_pos _) ?_
    rw [natAbs_num_div_den, Binary.signedValue]
    cases s <;> simp [abs_of_nonneg (f.value_nonneg m)]
  rw [nearestRank, hnearest, Binary.signedRank]
  cases s with
  | false =>
    have hnonneg : ¬Binary.signedValue false m < 0 := not_lt.2 (f.value_nonneg m)
    rw [if_neg hnonneg]
    rfl
  | true =>
    rcases Nat.eq_zero_or_pos m.val with hm | hm
    · rw [hm]
      simp
    · have hneg : Binary.signedValue true m < 0 := neg_lt_zero.2 (f.value_pos hm.ne')
      rw [if_pos hneg]
      rfl

/-- **The rank that a point of the extended line is rounded to**: what is too large for the format
has the rank of an infinity. -/
def roundedRank : ExtendedRat → Int :=
  WithBot.recBotCoe (-(f.size : Int)) <| WithTop.recTopCoe (f.size : Int) fun q =>
    max (-(f.size : Int)) (min (f.size : Int) (f.nearestRank q))

theorem roundedRank_bot : f.roundedRank ⊥ = -(f.size : Int) := rfl

theorem roundedRank_top : f.roundedRank (⊤ : WithTop ℚ) = f.size := rfl

theorem roundedRank_coe (q : ℚ) : f.roundedRank (q : WithTop ℚ) =
    max (-(f.size : Int)) (min (f.size : Int) (f.nearestRank q)) := rfl

theorem roundedRank_mem (a : ExtendedRat) :
    -(f.size : Int) ≤ f.roundedRank a ∧ f.roundedRank a ≤ f.size := by
  induction a using WithBot.recBotCoe with
  | bot => rw [roundedRank_bot]; omega
  | coe a =>
    induction a using WithTop.recTopCoe with
    | top => rw [roundedRank_top]; omega
    | coe q => rw [roundedRank_coe]; omega

/-- **Rounding keeps the order of the extended line.** -/
theorem monotone_roundedRank : Monotone f.roundedRank := by
  intro a b h
  induction a using WithBot.recBotCoe with
  | bot => exact (f.roundedRank_mem b).1
  | coe a =>
    obtain ⟨b, rfl⟩ := WithBot.ne_bot_iff_exists.1 (ne_bot_of_le_ne_bot (WithBot.coe_ne_bot) h)
    induction b using WithTop.recTopCoe with
    | top => exact (f.roundedRank_mem a).2
    | coe q =>
      obtain ⟨p, rfl⟩ := WithTop.ne_top_iff_exists.1
        (ne_top_of_le_ne_top WithTop.coe_ne_top (WithBot.coe_le_coe.1 h))
      have hle : p ≤ q := WithTop.coe_le_coe.1 (WithBot.coe_le_coe.1 h)
      rw [roundedRank_coe, roundedRank_coe]
      exact max_le_max le_rfl (min_le_min le_rfl (f.monotone_nearestRank hle))

end Format

namespace Binary

variable {f : Format}

/-- A number is rounded to itself. -/
theorem rank?_eq_map_value? (x : Binary f) : x.rank? = x.value?.map f.roundedRank := by
  rcases x with _ | (_ | _) | ⟨s, m⟩
  · rfl
  · rfl
  · rfl
  · obtain ⟨hlow, hhigh⟩ := signedRank_lt_size s m
    have hrounded : f.roundedRank ((signedValue s m : ℚ) : WithTop ℚ) = signedRank s m := by
      rw [Format.roundedRank_coe, Format.nearestRank_signedValue]
      omega
    rw [value?, Option.map_some, hrounded]
    rfl

/-- An integer is rounded to the number nearest to it. -/
theorem rank?_ofInt (i : Int) :
    (ofInt i : Binary f).rank? = some (f.roundedRank ((i : ℚ) : WithTop ℚ)) := by
  have hneg : (i : ℚ) < 0 ↔ i < 0 := by exact_mod_cast Iff.rfl
  rw [Format.roundedRank_coe, Format.nearestRank, Rat.num_intCast, Rat.den_intCast, ofInt, ofRatio]
  simp only [hneg]
  split
  · next hlt =>
    simp only [rank?, decide_eq_true_eq, Option.some.injEq]
    split <;> omega
  · next hge =>
    simp only [rank?, decide_eq_true_eq, Option.some.injEq]
    split <;> omega

/-- Other than zero, a finite number is told by its rank. -/
theorem eq_finite_of_rank?_eq {x : Binary f} {s : Bool} {m : Fin f.size} (hm : 0 < m.val)
    (h : x.rank? = some (signedRank s m)) : x = .finite s m := by
  have hmlt := m.isLt
  rcases x with _ | negative | ⟨t, k⟩
  · cases h
  · have hrank : (if negative then -(f.size : Int) else f.size) = signedRank s m :=
      Option.some.inj h
    unfold signedRank at hrank
    split at hrank <;> split at hrank <;> omega
  · have hrank : signedRank t k = signedRank s m := Option.some.inj h
    unfold signedRank at hrank
    obtain rfl : k = m := Fin.ext (by split at hrank <;> split at hrank <;> omega)
    obtain rfl : t = s := by
      cases s <;> cases t <;> first | rfl | (simp at hrank; omega)
    rfl

/-- Other than the zeros, numbers are told by their ranks. -/
theorem eq_of_rank?_eq_of_ne_zero {x y : Binary f} (h : x.rank? = y.rank?)
    (hzero : x.rank? ≠ some 0) : x = y := by
  rcases x with _ | negative | ⟨s, m⟩
  · rcases y with _ | _ | _
    · rfl
    · cases h
    · cases h
  · rcases y with _ | negative' | ⟨t, k⟩
    · cases h
    · cases negative <;> cases negative' <;> simp [rank?] at h hzero ⊢ <;> omega
    · have hk := signedRank_lt_size t k
      have hrank : (if negative then -(f.size : Int) else f.size) = signedRank t k :=
        Option.some.inj h
      split at hrank <;> omega
  · have hm : 0 < m.val := by
      refine Nat.pos_of_ne_zero fun hm => hzero ?_
      cases s <;> simp [rank?, hm]
    exact (eq_finite_of_rank?_eq hm h.symm).symm

end Binary

namespace Format

/-! ### What natural numbers are rounded to -/

variable (f : Format)

/-- A magnitude with a scale that is not negative is worth a natural number. -/
theorem value_eq_num {n : Nat} (h : 0 ≤ f.scale n) : f.value n = f.num n := by
  have hden : f.den n = 1 := by
    have hzero : (-f.scale n).toNat = 0 := by omega
    rw [den_eq, hzero, Nat.pow_zero]
  rw [← f.num_div_den, hden, Nat.cast_one, div_one]

/-- A magnitude from its significand with all bits, and the code before its own. -/
theorem value_mul_add (a : Nat) {c : Nat} (hlow : 2 ^ f.fractionBits ≤ c)
    (hhigh : c < 2 ^ (f.fractionBits + 1)) :
    f.value (a * 2 ^ f.fractionBits + c) = c * 2 ^ (f.minScale + a) := by
  obtain ⟨r, rfl⟩ := Nat.exists_eq_add_of_le hlow
  have hr : r < 2 ^ f.fractionBits := by
    rw [Nat.pow_succ] at hhigh
    omega
  have hsplit : a * 2 ^ f.fractionBits + (2 ^ f.fractionBits + r) =
      r + 2 ^ f.fractionBits * (a + 1) := by ring
  have hcode : f.code (a * 2 ^ f.fractionBits + (2 ^ f.fractionBits + r)) = a + 1 := by
    rw [code, hsplit, Nat.add_mul_div_left _ _ (Nat.two_pow_pos _), Nat.div_eq_of_lt hr,
      Nat.zero_add]
  have hmod : (a * 2 ^ f.fractionBits + (2 ^ f.fractionBits + r)) % 2 ^ f.fractionBits = r := by
    rw [hsplit, Nat.add_mul_mod_self_left, Nat.mod_eq_of_lt hr]
  rw [value, scale_eq, hcode, Nat.add_sub_cancel,
    f.significand_of_code_ne_zero (by rw [hcode]; exact Nat.succ_ne_zero a), hmod]

/-- The natural numbers below `2 ^ 53` are worth magnitudes. -/
theorem value_nearest_of_lt {k : Nat} (hk : k < 2 ^ 53) :
    double.value (double.nearest k 1) = k := by
  rcases Nat.eq_zero_or_pos k with rfl | hpos
  · rw [nearest, if_pos rfl, value_zero, Nat.cast_zero]
  have hlog : Nat.log 2 k ≤ 52 := Nat.le_of_lt_succ (Nat.log_lt_of_lt_pow hpos.ne' hk)
  have hlow : 2 ^ Nat.log 2 k ≤ k := Nat.pow_log_le_self 2 hpos.ne'
  have hhigh : k < 2 ^ (Nat.log 2 k + 1) := Nat.lt_pow_succ_log_self Nat.one_lt_two k
  generalize Nat.log 2 k = j at hlog hlow hhigh
  have hvalue : double.value ((j + 1022) * 2 ^ double.fractionBits + k * 2 ^ (52 - j)) = k := by
    rw [value_mul_add]
    · have hscale : (double.minScale + (j + 1022 : Nat) : Int) = -((52 - j : Nat) : Int) := by
        change (-1074 : Int) + (j + 1022 : Nat) = _
        omega
      rw [hscale, zpow_neg, zpow_natCast]
      push_cast
      exact mul_inv_cancel_right₀ (by positivity) _
    · calc 2 ^ 52 = 2 ^ j * 2 ^ (52 - j) := by
            rw [← Nat.pow_add]
            congr 1
            omega
        _ ≤ k * 2 ^ (52 - j) := Nat.mul_le_mul_right _ hlow
    · calc k * 2 ^ (52 - j) < 2 ^ (j + 1) * 2 ^ (52 - j) :=
            Nat.mul_lt_mul_of_pos_right hhigh (Nat.two_pow_pos _)
        _ = 2 ^ 53 := by
            rw [← Nat.pow_add]
            congr 1
            omega
  rw [double.nearest_of_value_eq Nat.one_pos (by simpa using hvalue), hvalue]

/-- **What natural numbers are rounded to** is worth a natural number. -/
theorem exists_value_nearest_eq (k : Nat) : ∃ n : Nat, double.value (double.nearest k 1) = n := by
  rcases Nat.lt_or_ge k (2 ^ 53) with hk | hk
  · exact ⟨k, value_nearest_of_lt hk⟩
  · -- From `2 ^ 53` on there are no fractions.
    have hle : 1076 * 2 ^ 52 ≤ double.nearest k 1 := by
      have hbound : double.nearest (2 ^ 53) 1 = 1076 * 2 ^ 52 := by decide
      rw [← hbound]
      exact double.nearest_le_nearest_one hk
    have hcode : 1076 ≤ double.code (double.nearest k 1) :=
      (Nat.le_div_iff_mul_le (Nat.two_pow_pos _)).2 hle
    have hscale : 0 ≤ double.scale (double.nearest k 1) := by
      have hmin : double.minScale = -1074 := rfl
      rw [scale_eq]
      omega
    exact ⟨_, double.value_eq_num hscale⟩

end Format

end Rulebook
