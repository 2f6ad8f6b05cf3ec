import Mathlib.Data.List.TakeWhile
import Rulebook.Number.Literal
import Rulebook.Proofs.Number.Digits

/-!
# What is written is read back

A number of 64 bits is laid out as text and scanned again. Both only move zeros between the digits
and the exponent, so the text is read back to the number. This is so for each way of writing that
uses no exponent, and it makes two numbers with the same text the same, the sign of a zero included.

* `Rulebook.Numeral.Spells` – a text that **stands for a decimal**, and
  `Rulebook.Layout.spells_placePoint`: digits with the point placed do;
* `Rulebook.Layout.real?_text` – the **text** reads back to the number;
* `Rulebook.Layout.text_injective` – different numbers have different texts;
* `Rulebook.Layout.forall_mem_text` – what the texts consist of.
-/

namespace Rulebook

/-! ### The value of digits -/

theorem digitsValue_eq (cs : List Char) : digitsValue cs = Nat.ofDigitChars 10 cs 0 := rfl

theorem digitsValue_toDigits (n : Nat) : digitsValue (Nat.toDigits 10 n) = n :=
  Nat.ofDigitChars_ten_toDigits

theorem digitsValue_append_zeros (cs : List Char) (k : Nat) :
    digitsValue (cs ++ List.replicate k '0') = digitsValue cs * 10 ^ k := by
  rw [digitsValue_eq, Nat.ofDigitChars_append, Nat.ofDigitChars_replicate_zero, Nat.mul_comm]
  rfl

theorem digitsValue_zeros_append (cs : List Char) (k : Nat) :
    digitsValue (List.replicate k '0' ++ cs) = digitsValue cs := by
  rw [digitsValue_eq, Nat.ofDigitChars_append, Nat.ofDigitChars_replicate_zero, Nat.mul_zero]
  rfl

theorem isDigit_of_mem_zeros {k : Nat} {c : Char} (h : c ∈ List.replicate k '0') :
    c.isDigit = true := by
  rw [List.eq_of_mem_replicate h]
  rfl

theorem isDigit_of_mem_toDigits {n : Nat} {c : Char} (h : c ∈ Nat.toDigits 10 n) :
    c.isDigit = true :=
  Nat.isDigit_of_mem_toDigits (by decide) (by decide) h

/-! ### Scanning -/

namespace Numeral

variable {whole fraction : List Char}

/-- Digits alone are the whole part of a numeral. -/
theorem scan_whole (h : ∀ c ∈ whole, c.isDigit = true) :
    scan whole = (⟨whole, none, none⟩, []) := by
  have htake : whole.takeWhile Char.isDigit = whole := List.takeWhile_eq_self_iff.2 h
  have hdrop : whole.dropWhile Char.isDigit = [] := List.dropWhile_eq_nil_iff.2 h
  simp [scan, spanDigits, htake, hdrop, scanFraction, scanExponent]

/-- Digits on both sides of a point are the whole part and the fraction. -/
theorem scan_point (hwhole : ∀ c ∈ whole, c.isDigit = true)
    (hfraction : ∀ c ∈ fraction, c.isDigit = true) :
    scan (whole ++ '.' :: fraction) = (⟨whole, some fraction, none⟩, []) := by
  have htake : (whole ++ '.' :: fraction).takeWhile Char.isDigit = whole := by
    rw [List.takeWhile_append_of_pos hwhole]
    simp
  have hdrop : (whole ++ '.' :: fraction).dropWhile Char.isDigit = '.' :: fraction := by
    rw [List.dropWhile_append_of_pos hwhole]
    simp
  have htake' : fraction.takeWhile Char.isDigit = fraction := List.takeWhile_eq_self_iff.2 hfraction
  have hdrop' : fraction.dropWhile Char.isDigit = [] := List.dropWhile_eq_nil_iff.2 hfraction
  simp [scan, spanDigits, htake, hdrop, scanFraction, htake', hdrop', scanExponent]

end Numeral

/-! ### Placing the point -/

/-- **A text that stands for a decimal**: it starts with a digit, it is a numeral without an
exponent, and the numeral reads as the decimal does. -/
structure Numeral.Spells (cs : List Char) (d : Decimal) : Prop where
  /-- There is a digit at the front. -/
  head : ∃ c rest, cs = c :: rest ∧ c.isDigit = true
  /-- There is nothing but digits and points. -/
  chars : ∀ c ∈ cs, c.isDigit = true ∨ c = '.'
  /-- What is scanned is all of the text. -/
  scan : ∃ n : Numeral, Numeral.scan cs = (n, []) ∧ n.whole ≠ [] ∧ n.exponent = none ∧
    ∀ (f : Format) (negative : Bool),
      (n.decimal.nearest negative : Binary f) = d.nearest negative

namespace Numeral

variable {whole fraction : List Char} {d : Decimal}

theorem exists_head (hwhole : ∀ c ∈ whole, c.isDigit = true) (hne : whole ≠ [])
    (rest : List Char) : ∃ c tail, whole ++ rest = c :: tail ∧ c.isDigit = true := by
  obtain ⟨c, tail, rfl⟩ := List.exists_cons_of_ne_nil hne
  exact ⟨c, tail ++ rest, rfl, hwhole c List.mem_cons_self⟩

theorem spells_whole (hwhole : ∀ c ∈ whole, c.isDigit = true) (hne : whole ≠ [])
    (h : ∀ (f : Format) (negative : Bool),
      (Decimal.nearest negative ⟨digitsValue whole, 0⟩ : Binary f) = d.nearest negative) :
    Spells whole d where
  head := by simpa using exists_head hwhole hne []
  chars := fun c hc => Or.inl (hwhole c hc)
  scan := ⟨_, scan_whole hwhole, hne, rfl, by simpa [decimal, power] using h⟩

theorem spells_point (hwhole : ∀ c ∈ whole, c.isDigit = true) (hne : whole ≠ [])
    (hfraction : ∀ c ∈ fraction, c.isDigit = true)
    (h : ∀ (f : Format) (negative : Bool),
      (Decimal.nearest negative ⟨digitsValue (whole ++ fraction), -(fraction.length : Int)⟩ :
        Binary f) = d.nearest negative) :
    Spells (whole ++ '.' :: fraction) d where
  head := exists_head hwhole hne _
  chars := List.forall_mem_append.2 ⟨fun c hc => Or.inl (hwhole c hc),
    List.forall_mem_cons.2 ⟨Or.inr rfl, fun c hc => Or.inl (hfraction c hc)⟩⟩
  scan := ⟨_, scan_point hwhole hfraction, hne, rfl, by simpa [decimal, power] using h⟩

end Numeral

/-- **The digits with the point placed** stand for the decimal. -/
theorem Layout.spells_placePoint (pointZero : Bool) (d : Nat) (e : Int) :
    Numeral.Spells (placePoint pointZero (Nat.toDigits 10 d) e).toList ⟨d, e⟩ := by
  have hdigits : ∀ c ∈ Nat.toDigits 10 d, c.isDigit = true := fun c => isDigit_of_mem_toDigits
  have hne : Nat.toDigits 10 d ≠ [] := Nat.toDigits_ne_nil
  unfold placePoint
  dsimp only
  split
  · next he =>
    have hwhole : ∀ c ∈ Nat.toDigits 10 d ++ List.replicate e.toNat '0', c.isDigit = true :=
      List.forall_mem_append.2 ⟨hdigits, fun c => isDigit_of_mem_zeros⟩
    have hexponent : (e.toNat : Int) = e := Int.toNat_of_nonneg he
    cases pointZero with
    | false =>
      have htext : (String.ofList (Nat.toDigits 10 d) ++ zeros e.toNat ++ "").toList =
          Nat.toDigits 10 d ++ List.replicate e.toNat '0' := by simp [zeros]
      rw [if_neg Bool.false_ne_true, htext]
      refine Numeral.spells_whole hwhole (by simp [hne]) fun f negative => ?_
      rw [digitsValue_append_zeros, digitsValue_toDigits, Decimal.nearest_shift, Int.zero_add,
        hexponent]
    | true =>
      have htext : (String.ofList (Nat.toDigits 10 d) ++ zeros e.toNat ++ ".0").toList =
          (Nat.toDigits 10 d ++ List.replicate e.toNat '0') ++ '.' :: ['0'] := by simp [zeros]
      rw [if_pos rfl, htext]
      refine Numeral.spells_point hwhole (by simp [hne]) (by simp) fun f negative => ?_
      have hzeros : (Nat.toDigits 10 d ++ List.replicate e.toNat '0') ++ ['0'] =
          Nat.toDigits 10 d ++ List.replicate (e.toNat + 1) '0' := by
        rw [List.append_assoc, ← List.replicate_succ']
      have hsum : -(['0'].length : Int) + (e.toNat + 1 : Nat) = e := by
        rw [List.length_singleton]
        omega
      rw [hzeros, digitsValue_append_zeros, digitsValue_toDigits, Decimal.nearest_shift, hsum]
  · next he =>
    have hplaces : -((-e).toNat : Int) = e := by omega
    split
    · next hlt =>
      set front := (Nat.toDigits 10 d).length - (-e).toNat with hfront
      have htext : (String.ofList ((Nat.toDigits 10 d).take front) ++ "." ++
          String.ofList ((Nat.toDigits 10 d).drop front)).toList =
          (Nat.toDigits 10 d).take front ++ '.' :: (Nat.toDigits 10 d).drop front := by simp
      have htake : (Nat.toDigits 10 d).take front ≠ [] := by
        rw [Ne, List.take_eq_nil_iff, not_or]
        exact ⟨by omega, hne⟩
      have hlength : ((Nat.toDigits 10 d).drop front).length = (-e).toNat := by
        rw [List.length_drop]
        omega
      rw [htext]
      refine Numeral.spells_point (fun c hc => hdigits c (List.mem_of_mem_take hc)) htake
        (fun c hc => hdigits c (List.mem_of_mem_drop hc)) fun f negative => ?_
      rw [List.take_append_drop, digitsValue_toDigits, hlength, hplaces]
    · next hge =>
      set gap := (-e).toNat - (Nat.toDigits 10 d).length with hgap
      have htext : ("0." ++ zeros gap ++ String.ofList (Nat.toDigits 10 d)).toList =
          ['0'] ++ '.' :: (List.replicate gap '0' ++ Nat.toDigits 10 d) := by simp [zeros]
      have hzeros : ['0'] ++ (List.replicate gap '0' ++ Nat.toDigits 10 d) =
          List.replicate (gap + 1) '0' ++ Nat.toDigits 10 d := rfl
      have hlength : (List.replicate gap '0' ++ Nat.toDigits 10 d).length = (-e).toNat := by
        rw [List.length_append, List.length_replicate]
        omega
      rw [htext]
      refine Numeral.spells_point (by simp) (by simp)
        (List.forall_mem_append.2 ⟨fun c => isDigit_of_mem_zeros, hdigits⟩) fun f negative => ?_
      rw [hzeros, digitsValue_zeros_append, digitsValue_toDigits, hlength, hplaces]

/-! ### Texts of numbers -/

namespace Literal

variable {f : Format} {cs : List Char} {d : Decimal}

/-- A sign in front of a digit is split off. -/
theorem splitSign_sign_append (negative : Bool) (h : ∃ c rest, cs = c :: rest ∧ c.isDigit = true) :
    splitSign ((Layout.sign negative).toList ++ cs) = (negative, cs) := by
  obtain ⟨c, rest, rfl, hc⟩ := h
  cases negative with
  | true => rfl
  | false =>
    change splitSign (c :: rest) = (false, c :: rest)
    unfold splitSign
    split
    · next heq =>
      cases heq
      exact absurd hc (by decide)
    · next heq =>
      cases heq
      exact absurd hc (by decide)
    · rfl

/-- A digit is no letter. -/
theorem toLower_of_isDigit {c : Char} (h : c.isDigit = true) : c.toLower = c := by
  simp only [Char.isDigit, Bool.and_eq_true, decide_eq_true_eq] at h
  refine dif_neg fun hupper => ?_
  exact absurd (UInt32.le_trans hupper.1 h.2) (by decide)

/-- A text that starts with a digit is no word. -/
theorem lower_ne {w : String} (h : ∃ c rest, cs = c :: rest ∧ c.isDigit = true)
    (hw : (w.toList.head?.map Char.isDigit).getD false = false) :
    String.ofList (cs.map Char.toLower) ≠ w := by
  obtain ⟨c, rest, rfl, hc⟩ := h
  rintro rfl
  simp [toLower_of_isDigit hc, hc] at hw

/-- A text that stands for a decimal is read as the decimal is, with the sign in front. -/
theorem real?_of_spells (negative : Bool) (h : Numeral.Spells cs d) :
    real? ((Layout.sign negative).toList ++ cs) = some (d.nearest negative : Binary f) := by
  obtain ⟨n, hscan, hwhole, hexponent, hnearest⟩ := h.scan
  have hinf : String.ofList (cs.map Char.toLower) ≠ "inf" := lower_ne h.head (by decide)
  have hinfinity : String.ofList (cs.map Char.toLower) ≠ "infinity" := lower_ne h.head (by decide)
  have hnan : String.ofList (cs.map Char.toLower) ≠ "nan" := lower_ne h.head (by decide)
  simp [real?, splitSign_sign_append negative h.head, hinf, hinfinity, hnan, hscan, hwhole,
    Numeral.exponentSpelled, hexponent, hnearest]

end Literal

namespace Layout

variable {l : Layout}

/-- A way of writing that uses no exponent places the point. -/
theorem spells_decimal (hl : l.positional = none) (d : Decimal) :
    Numeral.Spells (l.decimal d).toList d := by
  have htext : l.decimal d = placePoint l.pointZero (Nat.toDigits 10 d.digits) d.exponent := by
    simp [decimal, hl]
  rw [htext]
  exact spells_placePoint l.pointZero d.digits d.exponent

/-- **The text of a number is read back** to the number. -/
theorem real?_text (hl : l.positional = none) (x : Double) :
    Literal.real? (l.text x).toList = some x := by
  cases x with
  | nan =>
    change Literal.real? "NaN".toList = some .nan
    decide
  | infinite negative =>
    change Literal.real? (sign negative ++ "inf").toList = some (.infinite negative)
    cases negative <;> decide
  | finite negative m =>
    rw [text, String.toList_append, Literal.real?_of_spells negative (spells_decimal hl _),
      Decimal.nearest_shortest]

/-- **Different numbers have different texts.** -/
theorem text_injective (hl : l.positional = none) :
    Function.Injective (l.text : Double → String) := by
  intro x y h
  have hx := real?_text hl x
  rw [h, real?_text hl y] at hx
  exact (Option.some.inj hx).symm

/-- **What a text of a number consists of**: letters, digits, points and hyphens. -/
theorem forall_mem_text (hl : l.positional = none) (x : Double) :
    ∀ c ∈ (l.text x).toList, c.isAlphanum = true ∨ c = '.' ∨ c = '-' := by
  cases x with
  | nan => simp [text]
  | infinite negative => cases negative <;> simp [text, sign]
  | finite negative m =>
    rw [text, String.toList_append, List.forall_mem_append]
    constructor
    · cases negative <;> simp [sign]
    · intro c hc
      rcases (spells_decimal hl _).chars c hc with hdigit | hpoint
      · exact Or.inl (by simp [Char.isAlphanum, hdigit])
      · exact Or.inr (Or.inl hpoint)

theorem text_ne_empty (hl : l.positional = none) (x : Double) : l.text x ≠ "" := by
  intro hempty
  have hread := real?_text hl x
  rw [hempty] at hread
  cases hread

end Layout

end Rulebook
