import Mathlib
import Rulebook.Command.Run
import Rulebook.Proofs.Number.Reread
import Rulebook.Proofs.Text.Words

/-!
# Integers of any length

An integer can be spelled in many ways: with a sign, with zeros in front of its digits, with blank
characters around it. All of them are read as the same literal. If 64 bits hold the integer, it is
kept. Otherwise the literal is the binary number nearest to it, and two things can go wrong then: two
integers can be taken for the same one, and the digits that are shown are those of the binary
number. Here it is said exactly when they do.

* `Rulebook.Literal.SpellsInteger` – texts that **spell an integer**;
* `Rulebook.Literal.ofInteger` – **the literal** that all of these are read as;
* `Rulebook.Literal.Merged` – integers that are **taken for the same one**, and
  `Rulebook.Literal.meets_ofInteger_iff`: they are the only ones with a wrong outcome;
* `Rulebook.Literal.ShownInFull` – integers that are **shown with their own digits**;
* `Rulebook.Literal.checkOutput_of_spellsInteger` – **the check of two integers**.
-/

namespace Rulebook

/-! ### Digits alone -/

namespace Decimal

/-- The number of the first magnitude that is too large. -/
theorem nearest_two_pow : Format.double.nearest (2 ^ 1024) 1 = Format.double.size := by
  decide +kernel

/-- **Digits alone** are read as the number nearest to them, however many there are. -/
theorem nearest_digits (negative : Bool) (n : Nat) :
    (nearest negative ⟨n, 0⟩ : Double) = .ofRatio negative n 1 := by
  unfold nearest
  dsimp only
  split
  · next hsmall =>
    obtain rfl : n = 0 := hsmall.resolve_right (by simp only [reach]; omega)
    rfl
  · split
    · next hlarge =>
      have hcount : ¬digitCount n ≤ 400 := by
        simp only [reach] at hlarge
        omega
      have hpow : 10 ^ 400 ≤ n := not_lt.1 fun hlt => hcount ((digitCount_le_iff (by decide)).2 hlt)
      have htwo : 2 ^ 1024 ≤ n := (two_pow_le_pow (e := 3) (by decide) (by decide)).trans hpow
      have hsize : Format.double.size ≤ Format.double.nearest n 1 := by
        rw [← nearest_two_pow]
        exact Format.double.nearest_le_nearest_one htwo
      rw [Binary.ofRatio, dif_neg (not_lt.2 hsize)]
    · simp [num, den]

end Decimal

namespace Literal

open Binary

variable {s t : String} {i j : Int} {cs ds : List Char} {negative : Bool}

/-! ### Texts of integers -/

/-- **The signs** that digits may have in front of them, and whether they make a number negative. -/
inductive IsSign : List Char → Bool → Prop
  | absent : IsSign [] false
  | plus : IsSign ['+'] false
  | minus : IsSign ['-'] true

/-- **A text spells an integer** if it consists of its digits in the decimal system, with zeros in
front of them or not, behind a sign or none, and with blank characters around it or not. -/
def SpellsInteger (s : String) (i : Int) : Prop :=
  ∃ front sign digits back negative, s.toList = front ++ (sign ++ digits) ++ back ∧
    (∀ c ∈ front, Text.isBlank c = true) ∧ (∀ c ∈ back, Text.isBlank c = true) ∧
    IsSign sign negative ∧ digits ≠ [] ∧ (∀ c ∈ digits, c.isDigit = true) ∧
    i = withSign negative (Nat.ofDigitChars 10 digits 0)

/-- Its own digits spell an integer. -/
theorem spellsInteger_toString (i : Int) : SpellsInteger (toString i) i := by
  have hsign : IsSign (Layout.sign (decide (i < 0))).toList (decide (i < 0)) := by
    cases decide (i < 0) with
    | false => exact .absent
    | true => exact .minus
  refine ⟨[], _, Nat.toDigits 10 i.natAbs, [], _, ?_, by simp, by simp, hsign, Nat.toDigits_ne_nil,
    fun c => isDigit_of_mem_toDigits, ?_⟩
  · rw [toList_toString, List.nil_append, List.append_nil]
  · rw [Nat.ofDigitChars_ten_toDigits, withSign_natAbs]

/-- The literal for an integer. -/
def ofInteger (i : Int) : Literal :=
  match int64? i with
  | some k => .integer k
  | none => .real (.ofInt i)

theorem ofInteger_of_mem (hlow : -2 ^ 63 ≤ i) (hhigh : i < 2 ^ 63) :
    ofInteger i = .integer (Int64.ofInt i) := by
  rw [ofInteger, int64?_eq_some hlow hhigh]

theorem ofInteger_of_not_mem (h : i < -2 ^ 63 ∨ 2 ^ 63 ≤ i) : ofInteger i = .real (.ofInt i) := by
  rw [ofInteger, int64?_eq_none h]

/-- 64 bits hold an integer, or it lies beyond those that they hold. -/
theorem held_or_beyond (i : Int) : (-2 ^ 63 ≤ i ∧ i < 2 ^ 63) ∨ (i < -2 ^ 63 ∨ 2 ^ 63 ≤ i) := by
  omega

theorem toDouble_ofInteger (i : Int) : (ofInteger i).toDouble = .ofInt i := by
  obtain ⟨hlow, hhigh⟩ | hbeyond := held_or_beyond i
  · rw [ofInteger_of_mem hlow hhigh, toDouble, Int64.toInt_ofInt_of_le hlow hhigh]
  · rw [ofInteger_of_not_mem hbeyond]
    rfl

theorem IsSign.isBlank (h : IsSign cs negative) : ∀ c ∈ cs, Text.isBlank c = false := by
  cases h with
  | absent => nofun
  | plus => exact List.forall_mem_singleton.2 rfl
  | minus => exact List.forall_mem_singleton.2 rfl

/-- A sign in front of digits makes no other difference than whether the number is negative. -/
theorem IsSign.splitSign_append (h : IsSign cs negative) (hne : ds ≠ [])
    (hds : ∀ c ∈ ds, c.isDigit = true) :
    splitSign (cs ++ ds) = splitSign ((Layout.sign negative).toList ++ ds) := by
  have hhead : ∃ c rest, ds = c :: rest ∧ c.isDigit = true := by
    simpa using Numeral.exists_head hds hne []
  rw [splitSign_sign_append negative hhead]
  cases h with
  | absent => exact splitSign_sign_append false hhead
  | plus => rfl
  | minus => rfl

theorem integer?_congr (h : splitSign cs = splitSign ds) : integer? cs = integer? ds := by
  rw [integer?, integer?, h]

theorem real?_congr {f : Format} (h : splitSign cs = splitSign ds) :
    (real? cs : Option (Binary f)) = real? ds := by
  rw [real?, real?, h]

/-- **All texts that spell an integer are read as the literal for it.** -/
theorem parse?_of_spellsInteger (h : SpellsInteger s i) : parse? s = some (ofInteger i) := by
  obtain ⟨front, sign, digits, back, negative, hs, hfront, hback, hsign, hne, hdigits, hi⟩ := h
  rw [← digitsValue_eq] at hi
  have htrim : Text.trimChars s.toList = sign ++ digits := by
    rw [hs]
    refine Text.trimChars_append_append hfront hback (by simp [hne]) ?_
    refine List.forall_mem_append.2 ⟨hsign.isBlank, fun c hc => Text.isBlank_of_isAlphanum ?_⟩
    simp [Char.isAlphanum, hdigits c hc]
  have hsplit := hsign.splitSign_append hne hdigits
  have hinteger : integer? (sign ++ digits) = some i := by
    rw [integer?_congr hsplit, integer?_sign_append negative hne hdigits, ← hi]
  obtain ⟨hlow, hhigh⟩ | hbeyond := held_or_beyond i
  · rw [parse?, htrim, hinteger, Option.bind_some, int64?_eq_some hlow hhigh,
      ofInteger_of_mem hlow hhigh]
  · have hpos : 0 < digitsValue digits := by
      refine Nat.pos_of_ne_zero fun hzero => ?_
      rw [hzero] at hi
      cases negative <;> simp [withSign] at hi <;> omega
    have hreal : real? (sign ++ digits) = some (ofInt i : Double) := by
      rw [real?_congr hsplit,
        real?_of_spells negative (Numeral.spells_whole hdigits hne fun _ _ => rfl),
        Decimal.nearest_digits, hi, ofInt_withSign negative hpos]
    rw [parse?, htrim, hinteger, Option.bind_some, int64?_eq_none hbeyond, hreal,
      ofInteger_of_not_mem hbeyond]
    rfl

/-! ### The order of the literals -/

/-- Rounding keeps the order of the integers. -/
theorem atLeast_ofInt (h : i ≤ j) : (ofInt j : Double).atLeast (ofInt i) = true := by
  rw [atLeast, rank?_ofInt, rank?_ofInt]
  refine decide_eq_true (Format.double.monotone_roundedRank ?_)
  exact WithBot.coe_le_coe.2 (WithTop.coe_le_coe.2 (Int.cast_le.2 h))

/-- The value of an integer on the extended line. -/
def extended (i : Int) : ExtendedRat := ((i : ℚ) : WithTop ℚ)

theorem extended_le_extended : extended i ≤ extended j ↔ i ≤ j := by
  rw [extended, extended, WithBot.coe_le_coe, WithTop.coe_le_coe, Int.cast_le]

theorem value?_ofInteger_of_mem (hlow : -2 ^ 63 ≤ i) (hhigh : i < 2 ^ 63) :
    (ofInteger i).value? = some (extended i) := by
  rw [ofInteger_of_mem hlow hhigh, value?, Int64.toInt_ofInt_of_le hlow hhigh]
  rfl

theorem value?_bound : bound.value? = some (extended (2 ^ 63)) := by
  rw [bound_eq, Binary.value?, signedValue, if_neg Bool.false_ne_true, value_boundMagnitude,
    extended, Int.cast_pow, Int.cast_ofNat]

theorem value?_lowerBound : lowerBound.value? = some (extended (-2 ^ 63)) := by
  rw [lowerBound_eq, Binary.value?, signedValue, if_pos rfl, value_boundMagnitude, extended,
    Int.cast_neg, Int.cast_pow, Int.cast_ofNat]

/-- Below `2 ^ 63` the literal for an integer is worth no more than the integer, or than `-2 ^ 63`
if that is more. -/
theorem exists_value?_ofInteger_le (h : i < 2 ^ 63) :
    ∃ a, (ofInteger i).value? = some a ∧ a ≤ extended (max i (-2 ^ 63)) := by
  by_cases hlow : -2 ^ 63 ≤ i
  · exact ⟨_, value?_ofInteger_of_mem hlow h, extended_le_extended.2 (le_max_left _ _)⟩
  · have hatLeast : lowerBound.atLeast (ofInt i) = true := atLeast_ofInt (not_le.1 hlow).le
    obtain ⟨a, b, ha, hb, hle⟩ := (atLeast_iff (by decide)).1 hatLeast
    rw [value?_lowerBound] at ha
    obtain rfl := Option.some.inj ha
    refine ⟨b, ?_, hle.trans (extended_le_extended.2 (le_max_right _ _))⟩
    rw [ofInteger_of_not_mem (.inl (not_le.1 hlow))]
    exact hb

/-- From `-2 ^ 63` on it is worth no less than the integer, or than `2 ^ 63` if that is less. -/
theorem exists_le_value?_ofInteger (h : -2 ^ 63 ≤ i) :
    ∃ a, (ofInteger i).value? = some a ∧ extended (min i (2 ^ 63)) ≤ a := by
  by_cases hhigh : i < 2 ^ 63
  · exact ⟨_, value?_ofInteger_of_mem h hhigh, extended_le_extended.2 (min_le_left _ _)⟩
  · have hatLeast : (ofInt i : Double).atLeast bound = true := atLeast_ofInt (not_lt.1 hhigh)
    obtain ⟨a, b, ha, hb, hle⟩ := (atLeast_iff (by decide)).1 hatLeast
    rw [value?_bound] at hb
    obtain rfl := Option.some.inj hb
    refine ⟨a, ?_, (extended_le_extended.2 (min_le_right _ _)).trans hle⟩
    rw [ofInteger_of_not_mem (.inr (not_lt.1 hhigh))]
    exact ha

/-- Beyond the integers of 64 bits, on one side of them, the numbers nearest to the integers are
compared. -/
theorem meets_ofInteger_of_beyond (h : 2 ^ 63 ≤ i ∧ 2 ^ 63 ≤ j ∨ i < -2 ^ 63 ∧ j < -2 ^ 63) :
    (ofInteger i).meets (ofInteger j) = (ofInt i : Double).atLeast (ofInt j) := by
  rw [ofInteger_of_not_mem (h.elim (.inr ·.1) (.inl ·.1)),
    ofInteger_of_not_mem (h.elim (.inr ·.2) (.inl ·.2))]
  rfl

/-- **The literals for integers go up with the integers**, as far as they do not stay the same. -/
theorem meets_ofInteger_of_le (h : j ≤ i) : (ofInteger i).meets (ofInteger j) = true := by
  by_cases hbeyond : 2 ^ 63 ≤ i ∧ 2 ^ 63 ≤ j ∨ i < -2 ^ 63 ∧ j < -2 ^ 63
  · rw [meets_ofInteger_of_beyond hbeyond, atLeast_ofInt h]
  · obtain ⟨a, ha, hle⟩ := exists_le_value?_ofInteger (i := i) (by omega)
    obtain ⟨b, hb, hle'⟩ := exists_value?_ofInteger_le (i := j) (by omega)
    have hmiddle : extended (max j (-2 ^ 63)) ≤ extended (min i (2 ^ 63)) :=
      extended_le_extended.2 (by omega)
    exact (meets_iff _ _).2 ⟨a, b, ha, hb, hle'.trans (hmiddle.trans hle)⟩

/-- **Integers are merged** if the same binary number is nearest to both, and they lie from `2 ^ 63`
on, or up to `-2 ^ 63`. -/
def Merged (i j : Int) : Prop :=
  i < j ∧ (ofInt i : Double) = ofInt j ∧ (2 ^ 63 ≤ i ∨ j ≤ -2 ^ 63)

/-- The numbers nearest to large integers have no rank in common with zero. -/
theorem rank?_ofInt_ne_zero (h : 2 ^ 63 ≤ i ∨ i ≤ -2 ^ 63) :
    (ofInt i : Double).rank? ≠ some 0 := by
  intro hzero
  rcases h with h | h
  · have hatLeast : (ofInt i : Double).atLeast bound = true := atLeast_ofInt h
    rw [atLeast, hzero, bound_eq] at hatLeast
    exact absurd hatLeast (by decide)
  · have hatLeast : lowerBound.atLeast (ofInt i) = true := atLeast_ofInt h
    rw [atLeast, hzero, lowerBound_eq] at hatLeast
    exact absurd hatLeast (by decide)

/-- **Where the order is lost**: the lesser one of two integers meets the greater one if they are
merged, and not otherwise. -/
theorem meets_ofInteger_of_lt (h : i < j) :
    (ofInteger i).meets (ofInteger j) = true ↔ Merged i j := by
  constructor
  · intro hmeets
    have hbeyond : 2 ^ 63 ≤ i ∨ j ≤ -2 ^ 63 := by
      by_contra hwithin
      obtain ⟨a, ha, hle⟩ := exists_value?_ofInteger_le (i := i) (by omega)
      obtain ⟨b, hb, hle'⟩ := exists_le_value?_ofInteger (i := j) (by omega)
      obtain ⟨a', b', ha', hb', hle''⟩ := (meets_iff _ _).1 hmeets
      obtain rfl : a = a' := Option.some.inj (ha.symm.trans ha')
      obtain rfl : b = b' := Option.some.inj (hb.symm.trans hb')
      have hmiddle := extended_le_extended.1 (hle'.trans (hle''.trans hle))
      omega
    have hatLeast := atLeast_toDouble_of_meets hmeets
    have hatLeast' : (ofInt j : Double).atLeast (ofInt i) = true := atLeast_ofInt h.le
    rw [toDouble_ofInteger, toDouble_ofInteger] at hatLeast
    rw [atLeast, rank?_ofInt, rank?_ofInt] at hatLeast hatLeast'
    have hrank : (ofInt i : Double).rank? = (ofInt j : Double).rank? := by
      rw [rank?_ofInt, rank?_ofInt]
      exact congrArg some (le_antisymm (of_decide_eq_true hatLeast') (of_decide_eq_true hatLeast))
    exact ⟨h, eq_of_rank?_eq_of_ne_zero hrank (rank?_ofInt_ne_zero (by omega)), hbeyond⟩
  · rintro ⟨-, hsame, hbeyond⟩
    by_cases hlow : j = -2 ^ 63
    · subst hlow
      rw [ofInteger_of_not_mem (.inl h), hsame]
      decide +kernel
    · rw [meets_ofInteger_of_beyond (by omega), hsame, atLeast_ofInt le_rfl]

/-- **The outcome for two integers** is the right one unless they are merged. -/
theorem meets_ofInteger_iff :
    (ofInteger i).meets (ofInteger j) = decide (j ≤ i) ↔ ¬Merged i j := by
  rcases lt_or_ge i j with h | h
  · rw [decide_eq_false (not_le.2 h), ← meets_ofInteger_of_lt h, Bool.not_eq_true]
  · exact iff_of_true (by rw [meets_ofInteger_of_le h, decide_eq_true h])
      fun hmerged => absurd hmerged.1 (not_lt.2 h)

/-! ### The digits that are shown -/

/-- **An integer is shown in full** if 64 bits hold it, or if its digits are the fewest ones that
tell the binary number nearest to it. -/
def ShownInFull (i : Int) : Prop :=
  -2 ^ 63 ≤ i ∧ i < 2 ^ 63 ∨ ∃ m : Fin Format.double.size,
    Format.double.nearest i.natAbs 1 = m ∧ (Decimal.shortest .up m).num = i.natAbs

/-- A large number is shown as the natural number that its digits stand for, with its sign. -/
theorem text_finite_eq_toString {m : Fin Format.double.size} (h : 2 ^ 63 ≤ Format.double.value m) :
    text (.real (.finite negative m)) =
      toString (withSign negative (Decimal.shortest .up m).num) := by
  have hlow : 10 ^ 16 ≤ Format.double.value m := le_trans (by norm_num) h
  have hm : m.val ≠ 0 := (Format.double.pos_of_value_pos (lt_of_lt_of_le (by norm_num) h)).ne'
  have he := Decimal.exponent_shortest_nonneg .up hlow
  obtain ⟨hpos, -⟩ := Decimal.nearest_num_shortest .up hm he
  rw [← String.toList_inj, toList_text_finite he (showsPointZero_eq_false hlow), toList_toString,
    decide_withSign_lt negative hpos, natAbs_withSign, Decimal.num,
    ← toDigits_mul_ten_pow (Nat.pos_of_mul_pos_right hpos)]
  rfl

theorem toString_ne_inf (i : Int) (negative : Bool) :
    Layout.sign negative ++ "inf" ≠ toString i := by
  intro h
  have hspelled := integer?_toString i
  rw [← h] at hspelled
  cases negative <;> cases hspelled

/-- The number nearest to an integer is finite, unless its magnitude is too large. -/
theorem ofInt_cases (i : Int) :
    (∃ m : Fin Format.double.size, Format.double.nearest i.natAbs 1 = m ∧
      ofInt i = .finite (decide (i < 0)) m) ∨
    Format.double.size ≤ Format.double.nearest i.natAbs 1 ∧
      (ofInt i : Double) = .infinite (decide (i < 0)) := by
  rw [ofInt, ofRatio]
  split
  · next hlt => exact .inl ⟨⟨_, hlt⟩, rfl, rfl⟩
  · next hge => exact .inr ⟨not_lt.1 hge, rfl⟩

/-- **What is shown of an integer** are its own digits only in these cases. -/
theorem text_ofInteger_iff : (ofInteger i).text = toString i ↔ ShownInFull i := by
  obtain ⟨hlow, hhigh⟩ | hbeyond := held_or_beyond i
  · refine iff_of_true ?_ (.inl ⟨hlow, hhigh⟩)
    rw [ofInteger_of_mem hlow hhigh, text, Int64.toInt_ofInt_of_le hlow hhigh]
  rw [ofInteger_of_not_mem hbeyond]
  obtain ⟨m, hm, hfinite⟩ | ⟨hsize, hinfinite⟩ := ofInt_cases i
  · have hvalue : 2 ^ 63 ≤ Format.double.value m := by
      rw [← value_boundMagnitude, ← nearest_bound, ← hm]
      exact Format.double.strictMono_value.monotone
        (Format.double.nearest_le_nearest_one (by omega))
    have hnum : withSign (decide (i < 0)) (Decimal.shortest .up m).num = i ↔
        (Decimal.shortest .up m).num = i.natAbs := by
      simp only [withSign, decide_eq_true_eq]
      split <;> omega
    rw [hfinite, text_finite_eq_toString hvalue]
    refine Int.repr_inj.trans (hnum.trans ⟨fun h => .inr ⟨m, hm, h⟩, ?_⟩)
    rintro (hmem | ⟨m', hm', h⟩)
    · omega
    · rwa [Fin.ext (hm.symm.trans hm')]
  · rw [hinfinite]
    refine iff_of_false (toString_ne_inf i _) ?_
    rintro (hmem | ⟨m, hm, -⟩)
    · omega
    · exact absurd (hm ▸ m.isLt) (not_lt.2 hsize)

end Literal

/-! ### The line of a check -/

namespace Report

/-- **The line that tells the outcome of a check.** -/
def checkLine (value threshold : String) (result : Bool) : String :=
  "Rule check: " ++ value ++ " >= " ++ threshold ++ " -> " ++ verdict result

theorem check_eq_checkLine {report : Report} (h : report.format = .table) (v t : Literal)
    (result : Bool) : report.check v t result = checkLine v.text t.text result := by
  rw [check, h]
  rfl

theorem toList_checkLine (x y : String) (b : Bool) :
    (checkLine x y b).toList = "Rule check: ".toList ++ (x.toList ++ ' ' ::
      (['>', '=', ' '] ++ (y.toList ++ ' ' :: (['-', '>', ' '] ++ (verdict b).toList)))) := by
  have hparts : ∀ u v w p q z : String, (u ++ v ++ w ++ p ++ q ++ z).toList =
      u.toList ++ (v.toList ++ (w.toList ++ (p.toList ++ (q.toList ++ z.toList)))) := by
    intro u v w p q z
    simp only [String.toList_append, List.append_assoc]
  exact hparts "Rule check: " x " >= " y " -> " (verdict b)

/-- **What is told can be made out in the line** if there are no spaces in the two numbers. -/
theorem checkLine_inj {x y x' y' : String} {b b' : Bool} (hx : ' ' ∉ x.toList)
    (hy : ' ' ∉ y.toList) (hx' : ' ' ∉ x'.toList) (hy' : ' ' ∉ y'.toList) :
    checkLine x y b = checkLine x' y' b' ↔ x = x' ∧ y = y' ∧ b = b' := by
  constructor
  · intro h
    rw [← String.toList_inj, toList_checkLine, toList_checkLine] at h
    obtain ⟨hvalue, hrest⟩ :=
      eq_and_eq_of_append_separator hx hx' (List.append_cancel_left h)
    obtain ⟨hthreshold, hrest'⟩ :=
      eq_and_eq_of_append_separator hy hy' (List.append_cancel_left hrest)
    have hverdict : verdict b = verdict b' := String.toList_inj.1 (List.append_cancel_left hrest')
    refine ⟨String.toList_inj.1 hvalue, String.toList_inj.1 hthreshold, ?_⟩
    cases b <;> cases b' <;> first | rfl | exact absurd hverdict (by decide)
  · rintro ⟨rfl, rfl, rfl⟩
    rfl

end Report

/-- The outcome for two texts that are read is told. -/
theorem Command.checkOutput_of_parse? {s t : String} {v w : Literal}
    (hs : Literal.parse? s = some v) (ht : Literal.parse? t = some w) (report : Report) :
    checkOutput report s t = .ok (report.check v w (v.meets w)) := by
  rw [checkOutput, operand, operand, hs, ht]
  rfl

namespace Literal

variable {s t : String} {i j : Int}

theorem space_notMem_text (n : Literal) : ' ' ∉ n.text.toList := by
  intro h
  exact absurd (isBlank_of_mem_text n ' ' h) (by decide)

theorem space_notMem_toString (i : Int) : ' ' ∉ (toString i).toList := by
  rw [toList_toString, List.mem_append]
  rintro (hsign | hdigit)
  · exact absurd (eq_of_mem_sign hsign) (by decide)
  · exact absurd (isDigit_of_mem_toDigits hdigit) (by decide)

/-- **The check of two integers** of any length, in whatever way they are spelled. Each is read as
its literal, and so neither the spelling nor the length makes the check fail.

* The outcome is right exactly if the integers are not merged.
* The line tells the integers in full and the right outcome exactly if, besides, both of them are
  shown in full.

Both are so if 64 bits hold the integers. -/
theorem checkOutput_of_spellsInteger (hs : SpellsInteger s i) (ht : SpellsInteger t j) :
    ∃ v w, parse? s = some v ∧ parse? t = some w ∧
      (v.meets w = decide (j ≤ i) ↔ ¬Merged i j) ∧
      (∀ report : Report, report.format = .table →
        (Command.checkOutput report s t =
            .ok (Report.checkLine (toString i) (toString j) (decide (j ≤ i))) ↔
          ShownInFull i ∧ ShownInFull j ∧ ¬Merged i j)) ∧
      (-2 ^ 63 ≤ i → i < 2 ^ 63 → -2 ^ 63 ≤ j → j < 2 ^ 63 →
        ShownInFull i ∧ ShownInFull j ∧ ¬Merged i j) := by
  have hv := parse?_of_spellsInteger hs
  have hw := parse?_of_spellsInteger ht
  refine ⟨_, _, hv, hw, meets_ofInteger_iff, fun report hformat => ?_, ?_⟩
  · rw [Command.checkOutput_of_parse? hv hw, Report.check_eq_checkLine hformat, Except.ok.injEq,
      Report.checkLine_inj (space_notMem_text _) (space_notMem_text _) (space_notMem_toString i)
        (space_notMem_toString j), text_ofInteger_iff, text_ofInteger_iff, meets_ofInteger_iff]
  · intro hlow hhigh hlow' hhigh'
    refine ⟨.inl ⟨hlow, hhigh⟩, .inl ⟨hlow', hhigh'⟩, ?_⟩
    rintro ⟨hlt, -, hbeyond⟩
    omega

/-- The least integer of 64 bits, with blank characters around it, is compared with itself, and with
a larger integer than 64 bits hold, with a sign and zeros in front of it. -/
theorem checkOutput_beyond :
    SpellsInteger "\t-9223372036854775808 " (-9223372036854775808) ∧
      SpellsInteger "+0010000000000000000000" 10000000000000000000 ∧
      Command.checkOutput .plain "\t-9223372036854775808 " "\t-9223372036854775808 " =
        .ok (Report.checkLine "-9223372036854775808" "-9223372036854775808" true) ∧
      Command.checkOutput .plain "\t-9223372036854775808 " "+0010000000000000000000" =
        .ok (Report.checkLine "-9223372036854775808" "10000000000000000000" false) := by
  have hs : SpellsInteger "\t-9223372036854775808 " (-9223372036854775808) :=
    ⟨['\t'], ['-'], "9223372036854775808".toList, [' '], true, rfl, by simp [Text.isBlank],
      by simp [Text.isBlank], .minus, by simp, by simp, rfl⟩
  have ht : SpellsInteger "+0010000000000000000000" 10000000000000000000 :=
    ⟨[], ['+'], "0010000000000000000000".toList, [], false, rfl, by simp, by simp, .plus,
      by simp, by simp, rfl⟩
  have hlarge : ShownInFull 10000000000000000000 :=
    .inr ⟨⟨Format.double.nearest 10000000000000000000 1, by decide⟩, rfl, by decide +kernel⟩
  have hmerged : ¬Merged (-9223372036854775808) 10000000000000000000 := by
    rintro ⟨-, -, hbeyond⟩
    omega
  obtain ⟨-, -, -, -, -, hself, hheld⟩ := checkOutput_of_spellsInteger hs hs
  obtain ⟨-, -, -, -, -, hline, -⟩ := checkOutput_of_spellsInteger hs ht
  exact ⟨hs, ht, (hself .plain rfl).2 (hheld (by decide) (by decide) (by decide) (by decide)),
    (hline .plain rfl).2 ⟨.inl (by decide), hlarge, hmerged⟩⟩

/-- **A wrong outcome.** Of the integers `2 ^ 63` and `2 ^ 63 + 1` the lesser one meets the greater
one, and neither is shown with its own digits. -/
theorem checkOutput_merged :
    SpellsInteger "9223372036854775808" 9223372036854775808 ∧
      SpellsInteger "9223372036854775809" 9223372036854775809 ∧
      (∃ v w, parse? "9223372036854775808" = some v ∧ parse? "9223372036854775809" = some w ∧
        v.meets w ≠ decide ((9223372036854775809 : Int) ≤ 9223372036854775808)) ∧
      Command.checkOutput .plain "9223372036854775808" "9223372036854775809" =
        .ok "Rule check: 9223372036854776000 >= 9223372036854776000 -> True" := by
  have hs : SpellsInteger "9223372036854775808" 9223372036854775808 :=
    spellsInteger_toString 9223372036854775808
  have ht : SpellsInteger "9223372036854775809" 9223372036854775809 :=
    spellsInteger_toString 9223372036854775809
  have hmerged : Merged 9223372036854775808 9223372036854775809 :=
    ⟨Int.lt_succ _, by decide +kernel, .inl le_rfl⟩
  have hv := parse?_of_spellsInteger hs
  have hw := parse?_of_spellsInteger ht
  refine ⟨hs, ht, ⟨_, _, hv, hw, fun hright => meets_ofInteger_iff.1 hright hmerged⟩, ?_⟩
  rw [Command.checkOutput_of_parse? hv hw]
  decide +kernel

end Literal

end Rulebook
