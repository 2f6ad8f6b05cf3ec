import Rulebook.Proofs.Number.Monotone
import Rulebook.Proofs.Number.ReadBack
import Rulebook.Proofs.Number.Threshold

/-!
# Literals that are shown and read again

A literal is shown with its digits, and what is shown can be read as a literal again. An integer is
read back as it is. A binary number is read back as it is if the text has a point in it, or if the
digits stand for no integer of 64 bits. What is left are the magnitudes from `10 ^ 16` to below
`2 ^ 63`: they are shown without the fraction `.0`, and are read again as integers. These integers
are not the numbers themselves, since no more digits are shown than it takes to tell a binary number
from others. They only are nearest to them.

So a check that is read again has the same outcome unless the number that has lost its point is
compared with an integer that it is nearest to.

* `Rulebook.Decimal.exponent_shortest_nonneg` – from `10 ^ 16` on there are no digits behind the
  point;
* `Rulebook.Literal.LosesPoint` – the numbers that are **read again as integers**;
* `Rulebook.Literal.parse?_text_and_meets` – what is read again is the same literal, and leads to
  the **same outcome**;
* `Rulebook.Literal.outcome_changed` – an outcome that changes.
-/

namespace Rulebook

/-! ### Digits of large numbers -/

namespace Decimal

variable {f : Format} {tie : Tie} {s : Bool} {m : Fin f.size} {d : Decimal}

theorem exponent_le_exponent_strip (d : Decimal) : d.exponent ≤ d.strip.exponent := by
  induction d using strip.induct with
  | case1 d h ih =>
    rw [strip, dif_pos h]
    exact le_trans (Int.le_add_one le_rfl) ih
  | case2 d h => rw [strip, dif_neg h]

theorem exponent_of_onGrid {num den : Nat} {passes : Decimal → Bool} {p : Int}
    (h : onGrid tie num den passes p = some d) : d.exponent = p := by
  unfold onGrid at h
  grind

/-- The exponent of the first digit of a natural number is one less than its number of digits. -/
theorem leadExponent_one {n : Nat} (hn : 0 < n) : leadExponent n 1 = (digitCount n : Int) - 1 := by
  have hone : digitCount 1 = 1 := by decide
  have hpos : 0 < digitCount n := by
    rw [digitCount, if_neg hn.ne']
    exact List.length_pos_iff.2 Nat.toDigits_ne_nil
  have hle : 10 ^ (digitCount n - 1) ≤ n := by
    rcases Nat.eq_zero_or_pos (digitCount n - 1) with hzero | hcount
    · rw [hzero]
      exact hn
    · by_contra hlt
      have hfewer := (digitCount_le_iff hcount).2 (not_le.1 hlt)
      omega
  have htoNat : ((digitCount n : Int) - 1).toNat = digitCount n - 1 := by omega
  have htoNat' : (-((digitCount n : Int) - 1)).toNat = 0 := by omega
  simp only [leadExponent, hone, Nat.cast_one, htoNat, htoNat']
  rw [if_pos (by simpa using hle)]

/-- **From `10 ^ 16` on there are no digits behind the point.** -/
theorem exponent_shortest_nonneg (tie : Tie) {m : Fin Format.double.size}
    (h : 10 ^ 16 ≤ Format.double.value m) : 0 ≤ (shortest tie m).exponent := by
  have hm : m.val ≠ 0 := (Format.double.pos_of_value_pos (lt_of_lt_of_le (by norm_num) h)).ne'
  have hscale : 0 ≤ Format.double.scale m := by
    by_contra hneg
    have hsignificand : (Format.double.significand m : ℚ) < 2 ^ 53 := by
      exact_mod_cast Format.double.significand_lt m
    have hpow : (2 : ℚ) ^ Format.double.scale m ≤ 1 := zpow_le_one_of_nonpos₀ one_le_two (by omega)
    have hlt : Format.double.value m < 2 ^ 53 := calc
      Format.double.value m ≤ Format.double.significand m * 1 :=
        mul_le_mul_of_nonneg_left hpow (Nat.cast_nonneg _)
      _ < 2 ^ 53 := by simpa using hsignificand
    norm_num at h hlt
    linarith
  have hden : Format.double.den m = 1 := by
    have hzero : (-Format.double.scale m).toNat = 0 := by omega
    rw [Format.den_eq, hzero, Nat.pow_zero]
  have hnum : 10 ^ 16 ≤ Format.double.num m := by
    rw [Format.double.value_eq_num hscale] at h
    exact_mod_cast h
  have hlead : 16 ≤ leadExponent (Format.double.num m) (Format.double.den m) := by
    have hcount : 17 ≤ digitCount (Format.double.num m) := by
      by_contra hfew
      have hlt := (digitCount_le_iff (Nat.succ_pos 15)).1 (Nat.le_of_lt_succ (not_le.1 hfew))
      omega
    rw [hden, leadExponent_one (Format.double.num_pos hm)]
    omega
  rw [shortest, if_neg hm]
  refine le_trans ?_ (exponent_le_exponent_strip _)
  cases hfound : List.findSome? _ _ with
  | none =>
    have hexact : ¬Format.double.scale m < 0 := by omega
    simp [exact, hexact]
  | some d =>
    obtain ⟨p, hp, hgrid⟩ := List.exists_of_findSome?_eq_some hfound
    obtain ⟨i, hi, rfl⟩ := List.mem_map.1 hp
    have hi' : i < 17 := List.mem_range.1 hi
    have hexponent := exponent_of_onGrid hgrid
    rw [Option.getD_some, hexponent]
    omega

theorem nearest_of_ofRatio_eq {num den : Nat} (h : Binary.ofRatio s num den = .finite s m) :
    f.nearest num den = m := by
  unfold Binary.ofRatio at h
  split at h
  · injection h with _ hm
    exact congrArg Fin.val hm
  · cases h

/-- A decimal without digits behind the point that is read as a positive magnitude stands for a
natural number that the magnitude is nearest to. -/
theorem nearest_num_of_nearest_eq (h : nearest s d = .finite s m) (hm : m.val ≠ 0)
    (he : 0 ≤ d.exponent) : 0 < d.num ∧ f.nearest d.num 1 = m := by
  have hden : d.den = 1 := by
    have hzero : (-d.exponent).toNat = 0 := by omega
    rw [den, hzero]
  have hnearest : f.nearest d.num 1 = m := by
    unfold nearest at h
    dsimp only at h
    split at h
    · have hzero := nearest_of_ofRatio_eq h
      rw [Format.nearest, if_pos rfl] at hzero
      exact absurd hzero.symm hm
    · split at h
      · cases h
      · rw [hden] at h
        exact nearest_of_ofRatio_eq h
  refine ⟨Nat.pos_of_ne_zero fun hzero => ?_, hnearest⟩
  rw [hzero, Format.nearest, if_pos rfl] at hnearest
  exact hm hnearest.symm

/-- Digits without any behind the point stand for a natural number that the number is nearest to. -/
theorem nearest_num_shortest (tie : Tie) {m : Fin Format.double.size} (hm : m.val ≠ 0)
    (he : 0 ≤ (shortest tie m).exponent) :
    0 < (shortest tie m).num ∧ Format.double.nearest (shortest tie m).num 1 = m :=
  nearest_num_of_nearest_eq (nearest_shortest tie false m) hm he

end Decimal

/-! ### Texts without blank characters -/

namespace Text

theorem dropWhile_isBlank_append {cs : List Char} (hne : cs ≠ [])
    (h : ∀ c ∈ cs, isBlank c = false) (ds : List Char) :
    (cs ++ ds).dropWhile isBlank = cs ++ ds := by
  obtain ⟨c, cs, rfl⟩ := List.exists_cons_of_ne_nil hne
  rw [List.cons_append, List.dropWhile_cons, h c List.mem_cons_self, if_neg Bool.false_ne_true]

/-- Blank characters around a text without any are taken off. -/
theorem trimChars_append_append {front cs back : List Char}
    (hfront : ∀ c ∈ front, isBlank c = true) (hback : ∀ c ∈ back, isBlank c = true)
    (hne : cs ≠ []) (h : ∀ c ∈ cs, isBlank c = false) :
    trimChars (front ++ cs ++ back) = cs := by
  have hreverse : cs.reverse.dropWhile isBlank = cs.reverse := by
    simpa using dropWhile_isBlank_append (List.reverse_ne_nil_iff.2 hne) (by simpa using h) []
  rw [trimChars, List.append_assoc, List.dropWhile_append_of_pos hfront,
    dropWhile_isBlank_append hne h, List.reverse_append,
    List.dropWhile_append_of_pos (by simpa using hback), hreverse, List.reverse_reverse]

theorem trimChars_eq_self {cs : List Char} (h : ∀ c ∈ cs, isBlank c = false) :
    trimChars cs = cs := by
  rcases eq_or_ne cs [] with rfl | hne
  · rfl
  · simpa using @trimChars_append_append [] cs [] nofun nofun hne h

theorem isBlank_of_isAlphanum {c : Char} (h : c.isAlphanum = true) : isBlank c = false := by
  have hbetween : ∀ {low high : UInt32}, (decide (low ≤ c.val) && decide (c.val ≤ high)) = true →
      low.toNat ≤ c.toNat ∧ c.toNat ≤ high.toNat := fun hrange =>
    (Bool.and_eq_true_iff.1 hrange).imp of_decide_eq_true of_decide_eq_true
  have hrange : ((65 ≤ c.toNat ∧ c.toNat ≤ 90) ∨ 97 ≤ c.toNat ∧ c.toNat ≤ 122) ∨
      48 ≤ c.toNat ∧ c.toNat ≤ 57 := by
    rcases Bool.or_eq_true_iff.1 h with halpha | hdigit
    · rcases Bool.or_eq_true_iff.1 halpha with hupper | hlower
      · exact Or.inl (Or.inl (of_decide_eq_true hupper))
      · exact Or.inl (Or.inr (hbetween hlower))
    · exact Or.inr (hbetween hdigit)
  simp only [isBlank, Bool.or_eq_false_iff, Bool.and_eq_false_iff, decide_eq_false_iff_not,
    beq_eq_false_iff_ne]
  omega

end Text

namespace Literal

open Binary

variable {cs : List Char} {s : Bool} {m : Fin Format.double.size} {x : Double}
  {n w v t v' t' : Literal}

/-! ### Integers -/

/-- A natural number with a sign. -/
def withSign (negative : Bool) (k : Nat) : Int := if negative then -(k : Int) else k

theorem withSign_natAbs (i : Int) : withSign (decide (i < 0)) i.natAbs = i := by
  simp only [withSign, decide_eq_true_eq]
  split <;> omega

theorem decide_withSign_lt (negative : Bool) {k : Nat} (hk : 0 < k) :
    decide (withSign negative k < 0) = negative := by
  cases negative <;> simp [withSign, hk]

theorem natAbs_withSign (negative : Bool) (k : Nat) : (withSign negative k).natAbs = k := by
  cases negative <;> simp [withSign]

/-- The number nearest to an integer has its sign, but for zero. -/
theorem ofInt_withSign (negative : Bool) {k : Nat} (hk : 0 < k) :
    (ofInt (withSign negative k) : Double) = ofRatio negative k 1 := by
  rw [ofInt, decide_withSign_lt negative hk, natAbs_withSign]

/-- Digits with a sign in front of them spell an integer. -/
theorem integer?_sign_append (negative : Bool) (hne : cs ≠ [])
    (h : ∀ c ∈ cs, c.isDigit = true) :
    integer? ((Layout.sign negative).toList ++ cs) = some (withSign negative (digitsValue cs)) := by
  have hhead : ∃ c rest, cs = c :: rest ∧ c.isDigit = true := by
    obtain ⟨c, rest, rfl⟩ := List.exists_cons_of_ne_nil hne
    exact ⟨c, rest, rfl, h c List.mem_cons_self⟩
  have hall : cs.all Char.isDigit = true := List.all_eq_true.2 h
  simp [integer?, splitSign_sign_append negative hhead, hall, hne, withSign]

/-- What has a point in it spells no integer. -/
theorem integer?_of_mem_point (h : '.' ∈ cs) : integer? cs = none := by
  have hpoint : '.' ∈ (splitSign cs).2 := by
    unfold splitSign
    split
    · exact (List.mem_cons.1 h).resolve_left (by decide)
    · exact (List.mem_cons.1 h).resolve_left (by decide)
    · exact h
  have hall : (splitSign cs).2.all Char.isDigit = false := by
    rw [List.all_eq_false]
    exact ⟨'.', hpoint, by decide⟩
  simp [integer?, hall]

theorem int64?_eq_some {i : Int} (hlow : -2 ^ 63 ≤ i) (hhigh : i < 2 ^ 63) :
    int64? i = some (Int64.ofInt i) := if_pos ⟨hlow, Int.le_of_lt_add_one hhigh⟩

theorem int64?_eq_none {i : Int} (h : i < -2 ^ 63 ∨ 2 ^ 63 ≤ i) : int64? i = none := by
  refine if_neg ?_
  rintro ⟨hlow, hhigh⟩
  have hlow' : -2 ^ 63 ≤ i := hlow
  have hhigh' : i ≤ 2 ^ 63 - 1 := hhigh
  omega

/-- The text of an integer is its sign and its digits. -/
theorem toList_toString (i : Int) :
    (toString i).toList = (Layout.sign (decide (i < 0))).toList ++ Nat.toDigits 10 i.natAbs := by
  cases i with
  | ofNat k => simp [toString, Layout.sign, Nat.repr, Int.repr]
  | negSucc k => simp [toString, Layout.sign, Nat.repr, Int.repr]

/-- An integer is spelled by its own text. -/
theorem integer?_toString (i : Int) : integer? (toString i).toList = some i := by
  rw [toList_toString, integer?_sign_append _ Nat.toDigits_ne_nil fun c => isDigit_of_mem_toDigits,
    digitsValue_toDigits, withSign_natAbs]

/-! ### Texts -/

theorem eq_of_mem_sign {c : Char} {negative : Bool} (h : c ∈ (Layout.sign negative).toList) :
    c = '-' := by
  cases negative with
  | false => exact absurd h List.not_mem_nil
  | true => exact List.mem_singleton.1 h

/-- There are no blank characters in the text of a literal. -/
theorem isBlank_of_mem_text (n : Literal) : ∀ c ∈ n.text.toList, Text.isBlank c = false := by
  intro c hc
  have hchars : c.isAlphanum = true ∨ c = '.' ∨ c = '-' := by
    cases n with
    | integer i =>
      have hc' : c ∈ (toString i.toInt).toList := hc
      rw [toList_toString, List.mem_append] at hc'
      rcases hc' with hsign | hdigit
      · exact Or.inr (Or.inr (eq_of_mem_sign hsign))
      · exact Or.inl (by simp [Char.isAlphanum, isDigit_of_mem_toDigits hdigit])
    | real x =>
      exact
        Layout.forall_mem_text (l := { Layout.plain with pointZero := showsPointZero x }) rfl x c hc
  rcases hchars with halphanum | rfl | rfl
  · exact Text.isBlank_of_isAlphanum halphanum
  · rfl
  · rfl

/-- The text of a literal is read as an integer of 64 bits if it spells one. -/
theorem parse?_text_of_integer? {i : Int64}
    (h : (integer? n.text.toList).bind int64? = some i) : parse? n.text = some (.integer i) := by
  rw [parse?, Text.trimChars_eq_self (isBlank_of_mem_text n), h]

/-- Otherwise the text of a binary number is read as that number. -/
theorem parse?_text_real (h : (integer? (text (.real x)).toList).bind int64? = none) :
    parse? (text (.real x)) = some (.real x) := by
  have hreal : real? (text (.real x)).toList = some x :=
    Layout.real?_text (l := { Layout.plain with pointZero := showsPointZero x }) rfl x
  rw [parse?, Text.trimChars_eq_self (isBlank_of_mem_text (.real x)), h, hreal]
  rfl

/-- **Integers are read back.** -/
theorem parse?_text_integer (i : Int64) : parse? (text (.integer i)) = some (.integer i) := by
  refine parse?_text_of_integer? ?_
  rw [text, integer?_toString, Option.bind_some,
    int64?_eq_some (Int64.le_toInt i) (Int64.toInt_lt i), Int64.ofInt_toInt]

/-! ### Numbers that lose their point -/

/-- **A number that loses its point**: it is shown without the fraction `.0`, and integers of 64
bits are as large. -/
def LosesPoint : Literal → Prop
  | .real (.finite _ m) => 10 ^ 16 ≤ Format.double.value m ∧ Format.double.value m < 2 ^ 63
  | _ => False

theorem LosesPoint.exists_finite (h : n.LosesPoint) :
    ∃ s m, n = .real (.finite s m) ∧ 0 < m.val := by
  rcases n with i | _ | negative | ⟨s, m⟩
  · exact absurd h id
  · exact absurd h id
  · exact absurd h id
  · exact ⟨s, m, rfl, Format.double.pos_of_value_pos (lt_of_lt_of_le (by norm_num) h.1)⟩

/-- The number of the magnitude `10 ^ 16`. -/
def pointLimit : Fin Format.double.size := ⟨0x4341C37937E08000, by decide⟩

theorem value_pointLimit : Format.double.value pointLimit = 10 ^ 16 := by
  have hsignificand : Format.double.significand pointLimit = 2 ^ 15 * 5 ^ 16 := by decide
  have hscale : Format.double.scale pointLimit = 1 := by decide
  rw [Format.value, hsignificand, hscale]
  norm_num

/-- Whole numbers below `10 ^ 16` are shown with their point, and no others. -/
theorem showsPointZero_iff :
    showsPointZero (.finite s m) = true ↔
      ⌊signedValue s m⌋ = ⌈signedValue s m⌉ ∧ Format.double.value m < 10 ^ 16 := by
  have hlimit : (ofInt (Nat.pow 10 16) : Double) = .finite false pointLimit := by decide
  have hless : (Binary.finite false m : Double).atLeast (.finite false pointLimit) = false ↔
      Format.double.value m < 10 ^ 16 := by
    rw [← Bool.not_eq_true, atLeast_iff (by decide), ← value_pointLimit]
    simp [Binary.value?, signedValue]
  rw [showsPointZero, isWhole, floor?_finite, ceil?_finite, magnitude, hlimit]
  simp [hless]

theorem showsPointZero_eq_false (h : 10 ^ 16 ≤ Format.double.value m) :
    showsPointZero (.finite s m) = false := by
  rw [← Bool.not_eq_true, showsPointZero_iff]
  exact fun hshown => absurd h (not_le.2 hshown.2)

/-- Without a point, a number is written with its digits and with zeros behind them. -/
theorem toList_text_finite (hm : 0 ≤ (Decimal.shortest .up m).exponent)
    (hpoint : showsPointZero (.finite s m) = false) :
    (text (.real (.finite s m))).toList = (Layout.sign s).toList ++
      (Nat.toDigits 10 (Decimal.shortest .up m).digits ++
        List.replicate (Decimal.shortest .up m).exponent.toNat '0') := by
  rw [text, Layout.text, hpoint]
  simp [Layout.decimal, Layout.plain, Layout.placePoint, hm, Layout.zeros]

/-- What is written without a sign and a point is a natural number. -/
theorem integer?_text_finite (hm : 0 ≤ (Decimal.shortest .up m).exponent)
    (hpoint : showsPointZero (.finite s m) = false) :
    integer? (text (.real (.finite s m))).toList =
      some (withSign s (Decimal.shortest .up m).num) := by
  have htext := toList_text_finite hm hpoint
  set d := Decimal.shortest .up m
  have hdigits : ∀ c ∈ Nat.toDigits 10 d.digits ++ List.replicate d.exponent.toNat '0',
      c.isDigit = true :=
    List.forall_mem_append.2 ⟨fun c => isDigit_of_mem_toDigits, fun c => isDigit_of_mem_zeros⟩
  have hvalue : digitsValue (Nat.toDigits 10 d.digits ++ List.replicate d.exponent.toNat '0') =
      d.num := by
    rw [digitsValue_append_zeros, digitsValue_toDigits]
    rfl
  rw [htext, integer?_sign_append s (by simp) hdigits, hvalue]

/-- Otherwise there is a point in it. -/
theorem mem_point_text_finite
    (h : (Decimal.shortest .up m).exponent < 0 ∨ showsPointZero (.finite s m) = true) :
    '.' ∈ (text (.real (.finite s m))).toList := by
  have hplace : ∀ {pointZero : Bool} {ds : List Char} {e : Int}, e < 0 ∨ pointZero = true →
      '.' ∈ (Layout.placePoint pointZero ds e).toList := by
    intro pointZero ds e h
    unfold Layout.placePoint
    dsimp only
    split
    · next he =>
      have hpointZero : pointZero = true := h.resolve_left (by omega)
      simp [hpointZero]
    · split <;> simp
  rw [text, Layout.text, String.toList_append]
  exact List.mem_append_right _ (hplace h)

/-- A natural number is written with its point below `10 ^ 16`. -/
theorem le_value_of_not_showsPointZero (he : 0 ≤ (Decimal.shortest .up m).exponent)
    (hpoint : showsPointZero (.finite s m) = false) : 10 ^ 16 ≤ Format.double.value m := by
  by_contra hlt
  obtain ⟨k, hk⟩ : ∃ k : Nat, Format.double.value m = k := by
    rcases eq_or_ne m.val 0 with hm | hm
    · exact ⟨0, by rw [hm, Format.value_zero, Nat.cast_zero]⟩
    · obtain ⟨-, hnearest⟩ := Decimal.nearest_num_shortest .up hm he
      rw [← hnearest]
      exact Format.exists_value_nearest_eq _
  have hwhole : ⌊signedValue s m⌋ = ⌈signedValue s m⌉ := by
    cases s <;> simp [signedValue, hk, Int.floor_neg, Int.ceil_neg]
  rw [showsPointZero_iff.2 ⟨hwhole, not_le.1 hlt⟩] at hpoint
  cases hpoint

/-- The number of `2 ^ 63` is the one nearest to it. -/
theorem nearest_bound : Format.double.nearest (2 ^ 63) 1 = boundMagnitude := by decide

theorem lt_of_value_lt {k : Nat} (hk : Format.double.nearest k 1 = m)
    (h : Format.double.value m < 2 ^ 63) : k < 2 ^ 63 := by
  by_contra hge
  have hle : boundMagnitude.val ≤ m.val := by
    rw [← hk, ← nearest_bound]
    exact Format.double.nearest_le_nearest_one (not_lt.1 hge)
  have hvalue := Format.double.strictMono_value.monotone hle
  rw [value_boundMagnitude] at hvalue
  exact absurd h (not_lt.2 hvalue)

/-- The digits of a number from `2 ^ 63` on stand for no integer of 64 bits. At `2 ^ 63` itself this
is so because they are rounded up. -/
theorem lt_num_shortest
    (hk : Format.double.nearest (Decimal.shortest .up m).num 1 = m)
    (h : 2 ^ 63 ≤ Format.double.value m) : 2 ^ 63 < (Decimal.shortest .up m).num := by
  by_contra hle
  have hupper : m.val ≤ boundMagnitude.val := by
    rw [← hk, ← nearest_bound]
    exact Format.double.nearest_le_nearest_one (not_lt.1 hle)
  have hlower : boundMagnitude.val ≤ m.val := by
    rw [← value_boundMagnitude] at h
    exact Format.double.strictMono_value.le_iff_le.1 h
  obtain rfl : m = boundMagnitude := Fin.ext (le_antisymm hupper hlower)
  have hdigits : (Decimal.shortest .up boundMagnitude).num = 9223372036854776000 := by
    decide +kernel
  omega

/-- **Where the point is lost, an integer is read**, and the number is the one nearest to it. -/
theorem parse?_text_of_losesPoint (h : LosesPoint (.real (.finite s m))) :
    ∃ i : Int64, parse? (text (.real (.finite s m))) = some (.integer i) ∧
      (ofInt i.toInt : Double) = .finite s m := by
  obtain ⟨hlow, hhigh⟩ := h
  have hm : m.val ≠ 0 := (Format.double.pos_of_value_pos (lt_of_lt_of_le (by norm_num) hlow)).ne'
  have he := Decimal.exponent_shortest_nonneg .up hlow
  obtain ⟨hpos, hnearest⟩ := Decimal.nearest_num_shortest .up hm he
  have hlt := lt_of_value_lt hnearest hhigh
  have hrange : -2 ^ 63 ≤ withSign s (Decimal.shortest .up m).num ∧
      withSign s (Decimal.shortest .up m).num < 2 ^ 63 := by
    unfold withSign
    split <;> omega
  have hvalue := Int64.toInt_ofInt_of_le hrange.1 hrange.2
  refine ⟨.ofInt (withSign s (Decimal.shortest .up m).num), ?_, ?_⟩
  · refine parse?_text_of_integer? ?_
    rw [integer?_text_finite he (showsPointZero_eq_false hlow), Option.bind_some,
      int64?_eq_some hrange.1 hrange.2]
  · rw [hvalue, ofInt_withSign s hpos, ofRatio, dif_pos (by rw [hnearest]; exact m.isLt)]
    simp only [hnearest]

/-- **Where it is not lost, the same literal is read.** -/
theorem parse?_text_of_not_losesPoint (h : ¬n.LosesPoint) : parse? n.text = some n := by
  rcases n with i | x
  · exact parse?_text_integer i
  refine parse?_text_real ?_
  rcases x with _ | negative | ⟨s, m⟩
  · decide
  · cases negative <;> decide
  by_cases hpoint : (Decimal.shortest .up m).exponent < 0 ∨ showsPointZero (.finite s m) = true
  · rw [integer?_of_mem_point (mem_point_text_finite hpoint), Option.bind_none]
  · obtain ⟨he, hzero⟩ := not_or.1 hpoint
    have he' := not_lt.1 he
    have hzero' : showsPointZero (.finite s m) = false := by simpa using hzero
    have hlow := le_value_of_not_showsPointZero he' hzero'
    have hhigh : 2 ^ 63 ≤ Format.double.value m := not_lt.1 fun hlt => h ⟨hlow, hlt⟩
    have hm : m.val ≠ 0 :=
      (Format.double.pos_of_value_pos (lt_of_lt_of_le (by norm_num) hlow)).ne'
    obtain ⟨-, hnearest⟩ := Decimal.nearest_num_shortest .up hm he'
    have hlarge := lt_num_shortest hnearest hhigh
    rw [integer?_text_finite he' hzero', Option.bind_some]
    refine int64?_eq_none ?_
    unfold withSign
    split <;> omega

/-! ### Outcomes -/

/-- A literal is rounded to the binary number nearest to it. -/
theorem rank?_toDouble (n : Literal) :
    n.toDouble.rank? = n.value?.map Format.double.roundedRank := by
  cases n with
  | integer i => exact rank?_ofInt i.toInt
  | real x => exact rank?_eq_map_value? x

/-- What meets a threshold still does when both are rounded. -/
theorem atLeast_toDouble_of_meets (h : v.meets t = true) :
    v.toDouble.atLeast t.toDouble = true := by
  obtain ⟨a, b, ha, hb, hle⟩ := (meets_iff v t).1 h
  rw [atLeast, rank?_toDouble, rank?_toDouble, ha, hb]
  exact decide_eq_true (Format.double.monotone_roundedRank hle)

/-- **Literals that are rounded to different numbers** compare as these do. -/
theorem meets_eq_atLeast_toDouble (h : v.toDouble.rank? ≠ t.toDouble.rank?) :
    v.meets t = v.toDouble.atLeast t.toDouble := by
  rw [Bool.eq_iff_iff]
  refine ⟨atLeast_toDouble_of_meets, fun hatLeast => ?_⟩
  rw [rank?_toDouble, rank?_toDouble] at h
  rw [atLeast, rank?_toDouble, rank?_toDouble] at hatLeast
  cases hv : v.value? with
  | none => simp [hv] at hatLeast
  | some a =>
    cases ht : t.value? with
    | none => simp [hv, ht] at hatLeast
    | some b =>
      rw [hv, ht] at h hatLeast
      have hrank : Format.double.roundedRank b ≤ Format.double.roundedRank a := by
        simpa using hatLeast
      refine (meets_iff v t).2 ⟨a, b, hv, ht, le_of_not_gt fun hlt => h ?_⟩
      have hrank' := Format.double.monotone_roundedRank hlt.le
      rw [Option.map_some, Option.map_some, le_antisymm hrank' hrank]

/-- A literal that has a value meets itself. -/
theorem meets_self (h : n.toDouble.rank?.isSome = true) : n.meets n = true := by
  rw [rank?_toDouble, Option.isSome_map] at h
  obtain ⟨a, ha⟩ := Option.isSome_iff_exists.1 h
  exact (meets_iff n n).2 ⟨a, a, ha, ha, le_rfl⟩

/-- **A number blurs an integer** if it is the nearest one to it and loses its point. -/
def Blurs (n w : Literal) : Prop :=
  n.LosesPoint ∧ ∃ i, w = .integer i ∧ w.toDouble = n.toDouble

/-- Of the literals that are rounded to it, a number that loses its point blurs all others. -/
theorem eq_of_rank?_eq (h : n.LosesPoint) (hrank : n.toDouble.rank? = w.toDouble.rank?)
    (hblurs : ¬n.Blurs w) : w = n := by
  obtain ⟨s, m, rfl, hm⟩ := h.exists_finite
  have hsame : w.toDouble = .finite s m := eq_finite_of_rank?_eq hm hrank.symm
  rcases w with i | y
  · exact absurd ⟨h, i, rfl, hsame⟩ hblurs
  · exact congrArg real hsame

/-- Literals are read again. -/
theorem exists_parse?_text (n : Literal) :
    ∃ n', parse? n.text = some n' ∧ n'.toDouble = n.toDouble ∧ (n' = n ↔ ¬n.LosesPoint) ∧
      (n.LosesPoint → ∃ i, n' = .integer i) := by
  by_cases hloses : n.LosesPoint
  · obtain ⟨s, m, rfl, -⟩ := hloses.exists_finite
    obtain ⟨i, hparse, hdouble⟩ := parse?_text_of_losesPoint hloses
    exact ⟨.integer i, hparse, hdouble, by simp [hloses], fun _ => ⟨i, rfl⟩⟩
  · exact ⟨n, parse?_text_of_not_losesPoint hloses, rfl, by simp [hloses],
      fun h => absurd h hloses⟩

theorem toDouble_of_parse?_text (h : parse? n.text = some n') : n'.toDouble = n.toDouble := by
  obtain ⟨n'', hparse, hdouble, -⟩ := exists_parse?_text n
  rw [h] at hparse
  rw [Option.some.inj hparse, hdouble]

/-- **The outcome for what is read again.** -/
theorem meets_of_parse?_text (hv : parse? v.text = some v') (ht : parse? t.text = some t')
    (hvt : ¬v.Blurs t) (htv : ¬t.Blurs v) : v'.meets t' = v.meets t := by
  have hv' := toDouble_of_parse?_text hv
  have ht' := toDouble_of_parse?_text ht
  by_cases hrank : v.toDouble.rank? = t.toDouble.rank?
  · by_cases hloses : v.LosesPoint ∨ t.LosesPoint
    · -- What is rounded to a number that loses its point is that number itself.
      obtain rfl : v = t := by
        rcases hloses with hloses | hloses
        · exact (eq_of_rank?_eq hloses hrank hvt).symm
        · exact eq_of_rank?_eq hloses hrank.symm htv
      obtain rfl : v' = t' := Option.some.inj (hv.symm.trans ht)
      obtain ⟨s, m, rfl, -⟩ := (or_self_iff.1 hloses).exists_finite
      have hvalue : v'.toDouble.rank?.isSome = true := by
        rw [hv']
        rfl
      rw [meets_self hvalue, meets_self rfl]
    · obtain ⟨hvloses, htloses⟩ := not_or.1 hloses
      rw [parse?_text_of_not_losesPoint hvloses] at hv
      rw [parse?_text_of_not_losesPoint htloses] at ht
      rw [Option.some.inj hv, Option.some.inj ht]
  · have hrank' : v'.toDouble.rank? ≠ t'.toDouble.rank? := by rwa [hv', ht']
    rw [meets_eq_atLeast_toDouble hrank, meets_eq_atLeast_toDouble hrank', hv', ht']

/-- **What is read again**, in a check too. What is read of the text of a literal has the same
binary number nearest to it. It is the same literal exactly if the point is not lost, and an integer
otherwise. Read again, a value and a threshold lead to the same outcome unless one of them blurs the
other. -/
theorem parse?_text_and_meets (v t : Literal) :
    (∃ v', parse? v.text = some v' ∧ v'.toDouble = v.toDouble ∧ (v' = v ↔ ¬v.LosesPoint) ∧
      (v.LosesPoint → ∃ i, v' = .integer i)) ∧
    ∀ v' t', parse? v.text = some v' → parse? t.text = some t' → ¬v.Blurs t → ¬t.Blurs v →
      v'.meets t' = v.meets t :=
  ⟨exists_parse?_text v, fun _ _ => meets_of_parse?_text⟩

/-- The number `2 ^ 60`. -/
def largePower : Double := .ofInt (2 ^ 60)

theorem meets_of_largePower :
    parse? (text (.real largePower)) = some (.integer 1152921504606847000) ∧
      parse? (text (.real (.ofInt (10 ^ 16)))) = some (.integer (10 ^ 16)) ∧
      ¬(Literal.real largePower).Blurs (.real (.ofInt (10 ^ 16))) ∧
      ¬(Literal.real (.ofInt (10 ^ 16))).Blurs (.real largePower) ∧
      (Literal.integer 1152921504606847000).meets (.integer (10 ^ 16)) =
        (Literal.real largePower).meets (.real (.ofInt (10 ^ 16))) := by
  have hvalue : parse? (text (.real largePower)) = some (.integer 1152921504606847000) := by
    decide +kernel
  have hthreshold : parse? (text (.real (.ofInt (10 ^ 16)))) = some (.integer (10 ^ 16)) := by
    decide +kernel
  have hblurs : ¬(Literal.real largePower).Blurs (.real (.ofInt (10 ^ 16))) := by
    rintro ⟨-, i, hi, -⟩
    cases hi
  have hblurs' : ¬(Literal.real (.ofInt (10 ^ 16))).Blurs (.real largePower) := by
    rintro ⟨-, i, hi, -⟩
    cases hi
  exact ⟨hvalue, hthreshold, hblurs, hblurs',
    (parse?_text_and_meets _ _).2 _ _ hvalue hthreshold hblurs hblurs'⟩

/-- **An outcome that changes.** The integer `2 ^ 60` meets the binary number `2 ^ 60`. The number
is shown as `1152921504606847000`, which is a larger integer when it is read again. -/
theorem outcome_changed :
    parse? (text (.integer (2 ^ 60))) = some (.integer (2 ^ 60)) ∧
      text (.real largePower) = "1152921504606847000" ∧
      parse? (text (.real largePower)) = some (.integer 1152921504606847000) ∧
      (Literal.integer 1152921504606847000).value? ≠ (Literal.real largePower).value? ∧
      (Literal.integer (2 ^ 60)).meets (.real largePower) = true ∧
      (Literal.integer (2 ^ 60)).meets (.integer 1152921504606847000) = false := by
  have hmeets : (Literal.integer (2 ^ 60)).meets (.real largePower) = true := by decide +kernel
  have hfails : (Literal.integer (2 ^ 60)).meets (.integer 1152921504606847000) = false := by
    decide +kernel
  refine ⟨by decide +kernel, by decide +kernel, by decide +kernel, fun hvalue => ?_, hmeets, hfails⟩
  obtain ⟨a, b, ha, hb, hle⟩ := (meets_iff _ _).1 hmeets
  have hmeets' : (Literal.integer (2 ^ 60)).meets (.integer 1152921504606847000) = true :=
    (meets_iff _ _).2 ⟨a, b, ha, hvalue.trans hb, hle⟩
  rw [hfails] at hmeets'
  cases hmeets'

end Literal

end Rulebook
