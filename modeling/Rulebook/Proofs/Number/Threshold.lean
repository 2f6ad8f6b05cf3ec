import Mathlib.Tactic.Linarith
import Rulebook.Number.Threshold
import Rulebook.Proofs.Number.Value

/-!
# Meeting a threshold is exact

An integer and a binary number are compared through an integer next to the binary number. That is
exact for two reasons. Among the integers, being at least a number is being at least its ceiling;
and where the ceiling is taken, it is an integer of 64 bits. The second has to be looked into at
one place only: just below `2 ^ 63`, where numbers that are no integers would round up to it. There
are none, because the greatest binary number below `2 ^ 63` is `2 ^ 63 - 1024`.

* `Rulebook.Literal.value?` – the **value of a literal**;
* `Rulebook.Literal.signedValue_le_of_lt` – the gap below `2 ^ 63`;
* `Rulebook.Literal.meets_iff_value_le` – a literal meets a threshold exactly if its value is at
  least that of the threshold.
-/

namespace Rulebook.Literal

open Binary

/-- **The value of a literal.** -/
def value? : Literal → Option ExtendedRat
  | .integer i => some ((i.toInt : ℚ) : WithTop ℚ)
  | .real x => x.value?

/-! ### The bounds of the integers of 64 bits -/

/-- The number of the magnitude `2 ^ 63`. -/
def boundMagnitude : Fin Format.double.size := ⟨1086 * 2 ^ 52, by decide⟩

theorem bound_eq : bound = .finite false boundMagnitude := by decide

theorem lowerBound_eq : lowerBound = .finite true boundMagnitude := by decide

theorem value_boundMagnitude : Format.double.value boundMagnitude = 2 ^ 63 := by
  have hsignificand : Format.double.significand boundMagnitude = 2 ^ 52 := by decide
  have hscale : Format.double.scale boundMagnitude = 11 := by decide
  rw [Format.value, hsignificand, hscale]
  norm_num

/-- The magnitude below `2 ^ 63` has a significand of ones only. -/
theorem value_pred_boundMagnitude :
    Format.double.value (1086 * 2 ^ 52 - 1) = 2 ^ 63 - 1024 := by
  have hsignificand : Format.double.significand (1086 * 2 ^ 52 - 1) = 2 ^ 53 - 1 := by decide
  have hscale : Format.double.scale (1086 * 2 ^ 52 - 1) = 10 := by decide
  rw [Format.value, hsignificand, hscale]
  norm_num

theorem rankValue_bound : Format.double.rankValue (1086 * 2 ^ 52) = 2 ^ 63 := by
  rw [Format.rankValue, if_neg (by norm_num)]
  exact value_boundMagnitude

theorem rankValue_lowerBound : Format.double.rankValue (-(1086 * 2 ^ 52)) = -2 ^ 63 := by
  rw [Format.rankValue, if_pos (by norm_num), neg_inj]
  exact value_boundMagnitude

variable {s : Bool} {m : Fin Format.double.size} {v t : Int64} {x : Double}

theorem atLeast_bound_iff :
    (Binary.finite s m : Double).atLeast bound = true ↔ 2 ^ 63 ≤ signedValue s m := by
  have hrank : (Binary.finite s m : Double).atLeast bound = true ↔
      1086 * 2 ^ 52 ≤ signedRank s m := by
    rw [bound_eq]
    exact decide_eq_true_iff
  rw [hrank, ← rankValue_signedRank, ← rankValue_bound,
    Format.double.strictMono_rankValue.le_iff_le]

theorem atLeast_lowerBound_iff :
    (Binary.finite s m : Double).atLeast lowerBound = true ↔ -2 ^ 63 ≤ signedValue s m := by
  have hrank : (Binary.finite s m : Double).atLeast lowerBound = true ↔
      -(1086 * 2 ^ 52) ≤ signedRank s m := by
    rw [lowerBound_eq]
    exact decide_eq_true_iff
  rw [hrank, ← rankValue_signedRank, ← rankValue_lowerBound,
    Format.double.strictMono_rankValue.le_iff_le]

/-- **The gap below `2 ^ 63`**: a finite number below `2 ^ 63` is at most `2 ^ 63 - 1024`. -/
theorem signedValue_le_of_lt (h : signedValue s m < 2 ^ 63) : signedValue s m ≤ 2 ^ 63 - 1024 := by
  rw [← rankValue_signedRank, ← rankValue_bound,
    Format.double.strictMono_rankValue.lt_iff_lt] at h
  have hpred : Format.double.rankValue (1086 * 2 ^ 52 - 1) = 2 ^ 63 - 1024 := by
    rw [Format.rankValue, if_neg (by norm_num)]
    exact value_pred_boundMagnitude
  rw [← rankValue_signedRank, ← hpred]
  exact Format.double.strictMono_rankValue.monotone (by omega)

/-- **The integers next to a number within the bounds** are integers of 64 bits. -/
theorem floor_and_ceil_inRange (hlow : -2 ^ 63 ≤ signedValue s m)
    (hhigh : signedValue s m < 2 ^ 63) :
    -2 ^ 63 ≤ ⌊signedValue s m⌋ ∧ ⌈signedValue s m⌉ < 2 ^ 63 := by
  refine ⟨Int.le_floor.mpr (by exact_mod_cast hlow), ?_⟩
  have hceil : ⌈signedValue s m⌉ ≤ 2 ^ 63 - 1024 := by
    rw [Int.ceil_le]
    exact_mod_cast signedValue_le_of_lt hhigh
  omega

/-! ### The two mixed comparisons -/

theorem toInt_mem_bounds (v : Int64) : -2 ^ 63 ≤ (v.toInt : ℚ) ∧ (v.toInt : ℚ) < 2 ^ 63 := by
  have hlow : -2 ^ 63 ≤ v.toInt := Int64.le_toInt v
  have hhigh : v.toInt < 2 ^ 63 := Int64.toInt_lt v
  exact ⟨by exact_mod_cast hlow, by exact_mod_cast hhigh⟩

/-- A finite threshold: beyond the bounds the side decides, and within them the ceiling is an
integer of 64 bits. -/
theorem integerMeetsReal_finite :
    integerMeetsReal v (.finite s m) = true ↔ signedValue s m ≤ v.toInt := by
  obtain ⟨hlow, hhigh⟩ := toInt_mem_bounds v
  unfold integerMeetsReal
  by_cases hbound : (Binary.finite s m : Double).atLeast bound = true
  · have hfar := atLeast_bound_iff.mp hbound
    simp only [hbound, or_true, if_true, Bool.false_eq_true, false_iff, not_le]
    linarith
  · have hlt : signedValue s m < 2 ^ 63 := not_le.mp fun h => hbound (atLeast_bound_iff.mpr h)
    by_cases hlower : (Binary.finite s m : Double).atLeast lowerBound = true
    · have hge := atLeast_lowerBound_iff.mp hlower
      obtain ⟨hfloor, hceil⟩ := floor_and_ceil_inRange hge hlt
      have hcast : (Int64.ofInt ⌈signedValue s m⌉).toInt = ⌈signedValue s m⌉ :=
        Int64.toInt_ofInt_of_le (le_trans hfloor (Int.floor_le_ceil _)) hceil
      simp [hbound, hlower, ceil?_finite, Int64.le_iff_toInt_le, hcast, Int.ceil_le]
    · have hfar : signedValue s m < -2 ^ 63 :=
        not_le.mp fun h => hlower (atLeast_lowerBound_iff.mpr h)
      simp [hbound, hlower]
      linarith

/-- A finite value: beyond the bounds the side decides, and within them the floor is an integer of
64 bits. -/
theorem realMeetsInteger_finite :
    realMeetsInteger (.finite s m) t = true ↔ t.toInt ≤ signedValue s m := by
  obtain ⟨hlow, hhigh⟩ := toInt_mem_bounds t
  unfold realMeetsInteger
  by_cases hlower : (Binary.finite s m : Double).atLeast lowerBound = true
  · have hge := atLeast_lowerBound_iff.mp hlower
    by_cases hbound : (Binary.finite s m : Double).atLeast bound = true
    · have hfar := atLeast_bound_iff.mp hbound
      simp [hbound, hlower]
      linarith
    · have hlt : signedValue s m < 2 ^ 63 := not_le.mp fun h => hbound (atLeast_bound_iff.mpr h)
      obtain ⟨hfloor, hceil⟩ := floor_and_ceil_inRange hge hlt
      have hcast : (Int64.ofInt ⌊signedValue s m⌋).toInt = ⌊signedValue s m⌋ :=
        Int64.toInt_ofInt_of_le hfloor (lt_of_le_of_lt (Int.floor_le_ceil _) hceil)
      simp [hbound, hlower, floor?_finite, Int64.le_iff_toInt_le, hcast, Int.le_floor]
  · have hfar : signedValue s m < -2 ^ 63 :=
      not_le.mp fun h => hlower (atLeast_lowerBound_iff.mpr h)
    simp [hlower]
    linarith

theorem integerMeetsReal_iff :
    integerMeetsReal v x = true ↔
      ∃ b, x.value? = some b ∧ b ≤ (((v.toInt : ℚ) : WithTop ℚ) : ExtendedRat) := by
  rcases x with _ | (_ | _) | ⟨s, m⟩
  · simp [integerMeetsReal, Binary.value?]
  · have hbound : (Binary.infinite false : Double).atLeast bound = true := by decide
    simp [integerMeetsReal, Binary.value?, hbound]
  · have hbound : (Binary.infinite true : Double).atLeast bound = false := by decide
    have hlower : (Binary.infinite true : Double).atLeast lowerBound = false := by decide
    simp [integerMeetsReal, Binary.value?, hbound, hlower]
  · rw [integerMeetsReal_finite]
    simp [Binary.value?]

theorem realMeetsInteger_iff :
    realMeetsInteger x t = true ↔
      ∃ a, x.value? = some a ∧ (((t.toInt : ℚ) : WithTop ℚ) : ExtendedRat) ≤ a := by
  rcases x with _ | (_ | _) | ⟨s, m⟩
  · simp [realMeetsInteger, Binary.value?]
  · have hbound : (Binary.infinite false : Double).atLeast bound = true := by decide
    have hlower : (Binary.infinite false : Double).atLeast lowerBound = true := by decide
    simp [realMeetsInteger, Binary.value?, hbound, hlower]
  · have hlower : (Binary.infinite true : Double).atLeast lowerBound = false := by decide
    simp [realMeetsInteger, Binary.value?, hlower]
  · rw [realMeetsInteger_finite]
    simp [Binary.value?]

/-! ### All literals -/

theorem meets_iff (v t : Literal) :
    v.meets t = true ↔ ∃ a b, v.value? = some a ∧ t.value? = some b ∧ b ≤ a := by
  rcases v with v | v <;> rcases t with t | t
  · simp [meets, value?, Int64.le_iff_toInt_le]
  · simp [meets, value?, integerMeetsReal_iff]
  · simp [meets, value?, realMeetsInteger_iff]
  · simp only [meets, value?]
    exact atLeast_iff (by decide)

/-- **A literal meets a threshold exactly if its value is at least that of the threshold**, whatever
kinds the two are of; `nan` has no value and meets nothing. In particular a binary number that gets
as far as being replaced by the integer next to it, on either side, has a value of which that
is an integer of 64 bits, so that nothing is lost when it is taken for one. -/
theorem meets_iff_value_le :
    (∀ v t : Literal, v.meets t = true ↔
      ∃ a b, v.value? = some a ∧ t.value? = some b ∧ b ≤ a) ∧
    ∀ x : Double, x ≠ .nan → x.atLeast bound = false → x.atLeast lowerBound = true →
      ∃ q : ℚ, x.value? = some ((q : WithTop ℚ) : ExtendedRat) ∧
        x.floor? = some ⌊q⌋ ∧ x.ceil? = some ⌈q⌉ ∧
        (∀ c : Int, c = ⌊q⌋ ∨ c = ⌈q⌉ →
          Int64.minValue.toInt ≤ c ∧ c ≤ Int64.maxValue.toInt ∧ (Int64.ofInt c).toInt = c) := by
  refine ⟨meets_iff, fun x hnan hbound hlower => ?_⟩
  rcases x with _ | (_ | _) | ⟨s, m⟩
  · exact absurd rfl hnan
  · have hat : (Binary.infinite false : Double).atLeast bound = true := by decide
    rw [hat] at hbound
    cases hbound
  · have hat : (Binary.infinite true : Double).atLeast lowerBound = false := by decide
    rw [hat] at hlower
    cases hlower
  · have hlt : signedValue s m < 2 ^ 63 := by
      refine not_le.mp fun h => ?_
      rw [atLeast_bound_iff.mpr h] at hbound
      cases hbound
    obtain ⟨hfloor, hceil⟩ := floor_and_ceil_inRange (atLeast_lowerBound_iff.mp hlower) hlt
    have hle := Int.floor_le_ceil (signedValue s m)
    refine ⟨signedValue s m, rfl, floor?_finite s m, ceil?_finite s m, fun c hc => ?_⟩
    have hmin : -2 ^ 63 ≤ c := by rcases hc with rfl | rfl <;> omega
    have hmax : c < 2 ^ 63 := by rcases hc with rfl | rfl <;> omega
    exact ⟨hmin, Int.le_of_lt_add_one hmax, Int64.toInt_ofInt_of_le hmin hmax⟩

/-- The greatest number below `2 ^ 63`. -/
def belowBound : Double := .finite false ⟨1086 * 2 ^ 52 - 1, by decide⟩

theorem meets_below_bound :
    (Literal.integer Int64.maxValue).meets (.real belowBound) = true ∧
      belowBound ≠ .nan ∧ belowBound.atLeast bound = false ∧
      belowBound.atLeast lowerBound = true ∧
      ∃ q : ℚ, belowBound.value? = some ((q : WithTop ℚ) : ExtendedRat) ∧
        belowBound.ceil? = some ⌈q⌉ ∧ (Int64.ofInt ⌈q⌉).toInt = ⌈q⌉ := by
  have hnan : belowBound ≠ .nan := by decide
  have hbound : belowBound.atLeast bound = false := by decide
  have hlower : belowBound.atLeast lowerBound = true := by decide
  obtain ⟨q, hvalue, -, hceil, hrange⟩ := meets_iff_value_le.2 belowBound hnan hbound hlower
  exact ⟨by decide, hnan, hbound, hlower, q, hvalue, hceil, (hrange _ (Or.inr rfl)).2.2⟩

end Rulebook.Literal
