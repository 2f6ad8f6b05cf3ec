import Rulebook.Proofs.Rule.Wording

/-!
# Where the items of a payload end

The items of a list are written with commas in between, and the ends of a range with an ` AND `.
What stands between quotation marks is copied as it is. So the text does not always say where an
item ends: a quotation mark with a separator behind it may be the end of an item, and it may be a
part of one. Nothing else is left open.

A list **runs into** another one if they are the same up to a text that goes on, in the other list,
with a quotation mark and a separator, and if all that follows is written the same. Two conditions
on a field have the same words exactly if they are the same, or the payload of one of them runs into
that of the other. If no text has a quotation mark with a separator behind it in it, the words of a
condition are its own.

* `Rulebook.Scalar.row` – values with a separator in between;
* `Rulebook.Scalar.RunsInto` – **a list runs into another one**;
* `Rulebook.Scalar.row_eq_iff` – which lists are written the same;
* `Rulebook.Condition.describe_eq_iff_runsInto` – which conditions on a field are;
* `Rulebook.Condition.ambiguous_payloads` – payloads that run into others.
-/

namespace Rulebook

/-! ### Rows of values -/

namespace Scalar

variable {sep : List Char} {type : FieldType} {s t : Scalar} {xs ys : List Scalar}

/-- Values, each of them behind a separator. -/
def behind (sep : List Char) (xs : List Scalar) : List Char :=
  xs.flatMap fun s => sep ++ s.describe.toList

/-- **Values with a separator in between.** -/
def row (sep : List Char) : List Scalar → List Char
  | [] => []
  | x :: xs => x.describe.toList ++ behind sep xs

/-- What can stand between values: no part of it belongs to the value before it. -/
structure Separates (sep : List Char) : Prop where
  /-- There is something in between. -/
  ne_nil : sep ≠ []
  /-- It does not go on with a value without quotation marks. -/
  ends : EndsValue sep
  /-- It has no quotation mark in it. -/
  unquoted : '"' ∉ sep

@[simp] theorem behind_nil : behind sep [] = [] := rfl

theorem behind_cons (x : Scalar) (xs : List Scalar) :
    behind sep (x :: xs) = sep ++ row sep (x :: xs) := by
  simp [behind, row]

/-- A row is what is in the library the joining of the values. -/
theorem row_eq_intercalate (xs : List Scalar) :
    row sep xs = sep.intercalate (xs.map fun s => s.describe.toList) := by
  induction xs with
  | nil => rfl
  | cons x xs ih =>
    cases xs with
    | nil => simp [row]
    | cons y xs =>
      rw [row, behind_cons, ih]
      simp [List.intercalate_cons_cons]

theorem describe_ne_empty (s : Scalar) : s.describe ≠ "" := by
  rintro h
  rcases bare_or_quoted s with ⟨hne, -⟩ | ⟨u, -, -, hquoted⟩
  · exact hne (by rw [h]; rfl)
  · simp [h] at hquoted

theorem row_eq_nil_iff : row sep xs = [] ↔ xs = [] := by
  cases xs with
  | nil => simp [row]
  | cons x xs => simp [row, describe_ne_empty]

theorem Separates.endsValue_behind (hsep : Separates sep) (xs : List Scalar) :
    EndsValue (behind sep xs) := by
  cases xs with
  | nil => simp [EndsValue]
  | cons x xs =>
    obtain ⟨c, rest, rfl⟩ := List.exists_cons_of_ne_nil hsep.ne_nil
    rw [behind_cons]
    exact hsep.ends

/-- Behind something, rows are told apart as they are on their own. -/
theorem behind_eq_iff (hsep : Separates sep) :
    behind sep xs = behind sep ys ↔ row sep xs = row sep ys := by
  cases xs with
  | nil =>
    cases ys with
    | nil => simp
    | cons y ys => simp [behind_cons, hsep.ne_nil, row, describe_ne_empty]
  | cons x xs =>
    cases ys with
    | nil => simp [behind_cons, hsep.ne_nil, row, describe_ne_empty]
    | cons y ys => rw [behind_cons, behind_cons, List.append_cancel_left_eq]

/-! ### Rows that are written the same -/

/-- **A list runs into another one**: a text in it goes on, in the other list, with a quotation mark
and a separator, and all that follows is written the same. -/
inductive RunsInto (sep : List Char) : List Scalar → List Scalar → Prop
  /-- The text comes first. -/
  | here {u v : String} {xs ys : List Scalar} (hquoted : isBare u = false)
    (h : row sep xs = v.toList ++ '"' :: behind sep ys) :
    RunsInto sep (.text u :: xs) (.text (u ++ "\"" ++ String.ofList sep ++ v) :: ys)
  /-- The text comes later. -/
  | there {x : Scalar} {xs ys : List Scalar} (h : RunsInto sep xs ys) :
    RunsInto sep (x :: xs) (x :: ys)

theorem describe_text_of_quoted {u : String} (h : isBare u = false) :
    (Scalar.text u).describe.toList = '"' :: (u.toList ++ ['"']) := by
  simp [describe, h]

theorem RunsInto.row_eq (hsep : Separates sep) (h : RunsInto sep xs ys) :
    row sep xs = row sep ys := by
  induction h with
  | @here u v xs ys hquoted h =>
    obtain ⟨x, xs, rfl⟩ : ∃ x xs', xs = x :: xs' := by
      refine List.exists_cons_of_ne_nil fun hnil => ?_
      subst hnil
      simp [row] at h
    have hlonger : isBare (u ++ "\"" ++ String.ofList sep ++ v) = false :=
      isBare_of_mem_quote (by simp)
    rw [row, row, describe_text_of_quoted hquoted, describe_text_of_quoted hlonger, behind_cons, h]
    simp
  | there _ ih => rw [row, row, (behind_eq_iff hsep).2 ih]

/-- A text runs into a longer one if it goes on there with a quotation mark. -/
theorem runsInto_of_longer (hsep : Separates sep) {u v : String} {rest : List Char}
    (hquoted : isBare u = false) (hv : v.toList = u.toList ++ '"' :: rest)
    (h : behind sep xs = rest ++ '"' :: behind sep ys) :
    RunsInto sep (.text u :: xs) (.text v :: ys) := by
  cases xs with
  | nil => simp at h
  | cons x xs =>
    rw [behind_cons] at h
    obtain ⟨tail, rfl, hrow⟩ := exists_eq_append_of_notMem hsep.unquoted h
    obtain rfl : v = u ++ "\"" ++ String.ofList sep ++ String.ofList tail :=
      String.toList_injective (by simp [hv])
    exact .here hquoted (by simpa using hrow)

/-- **Rows that are written the same** start with the same value, or one of them runs into the
other. -/
theorem head_eq_or_runsInto (hsep : Separates sep) (hs : s.IsOf type) (ht : t.IsOf type)
    (h : row sep (s :: xs) = row sep (t :: ys)) :
    (s = t ∧ row sep xs = row sep ys) ∨ RunsInto sep (s :: xs) (t :: ys) ∨
      RunsInto sep (t :: ys) (s :: xs) := by
  have hends := hsep.endsValue_behind xs
  have hends' := hsep.endsValue_behind ys
  rw [row, row] at h
  rcases bare_or_quoted s with ⟨hsne, hsbare⟩ | ⟨u, rfl, hu, husplit⟩
  · rcases bare_or_quoted t with ⟨htne, htbare⟩ | ⟨v, rfl, hv, hvsplit⟩
    · obtain ⟨hdescribe, hrest⟩ := Rulebook.eq_and_eq_of_append hsbare htbare hends hends' h
      exact Or.inl ⟨eq_of_describe_eq hs ht (String.toList_injective hdescribe),
        (behind_eq_iff hsep).1 hrest⟩
    · rw [hvsplit] at h
      exact absurd h (not_quote_of_bare hsne hsbare)
  · rcases bare_or_quoted t with ⟨htne, htbare⟩ | ⟨v, rfl, hv, hvsplit⟩
    · rw [husplit] at h
      exact absurd h.symm (not_quote_of_bare htne htbare)
    · have hinner : u.toList ++ '"' :: behind sep xs = v.toList ++ '"' :: behind sep ys := by
        simpa [husplit, hvsplit] using h
      -- Either text may be the longer one.
      rcases List.append_eq_append_iff.1 hinner with ⟨more, hmore, hrest⟩ | ⟨more, hmore, hrest⟩
      · cases more with
        | nil =>
          obtain rfl : v = u := String.toList_injective (by simpa using hmore)
          exact Or.inl ⟨rfl, (behind_eq_iff hsep).1 (by simpa using hrest)⟩
        | cons c more =>
          obtain ⟨rfl, hbehind⟩ := List.cons.inj hrest
          exact Or.inr (Or.inl (runsInto_of_longer hsep hu hmore hbehind))
      · cases more with
        | nil =>
          obtain rfl : u = v := String.toList_injective (by simpa using hmore)
          exact Or.inl ⟨rfl, (behind_eq_iff hsep).1 (by simpa using hrest.symm)⟩
        | cons c more =>
          obtain ⟨rfl, hbehind⟩ := List.cons.inj hrest
          exact Or.inr (Or.inr (runsInto_of_longer hsep hv hmore hbehind))

/-- **Which lists of values of a type are written the same.** -/
theorem row_eq_iff (hsep : Separates sep) (hx : ∀ s ∈ xs, s.IsOf type)
    (hy : ∀ s ∈ ys, s.IsOf type) :
    row sep xs = row sep ys ↔ xs = ys ∨ RunsInto sep xs ys ∨ RunsInto sep ys xs := by
  constructor
  · intro h
    induction xs generalizing ys with
    | nil => exact Or.inl (row_eq_nil_iff.1 h.symm).symm
    | cons x xs ih =>
      cases ys with
      | nil => exact absurd (row_eq_nil_iff.1 h) (List.cons_ne_nil x xs)
      | cons y ys =>
        obtain ⟨hxtype, hxs⟩ := List.forall_mem_cons.1 hx
        obtain ⟨hytype, hys⟩ := List.forall_mem_cons.1 hy
        rcases head_eq_or_runsInto hsep hxtype hytype h with ⟨rfl, hrest⟩ | hruns
        · rcases ih hxs hys hrest with rfl | hruns | hruns
          · exact Or.inl rfl
          · exact Or.inr (Or.inl (.there hruns))
          · exact Or.inr (Or.inr (.there hruns))
        · exact Or.inr hruns
  · rintro (rfl | hruns | hruns)
    · rfl
    · exact hruns.row_eq hsep
    · exact (hruns.row_eq hsep).symm

end Scalar

/-! ### Texts in which no item ends -/

namespace Scalar

variable {sep : List Char} {xs ys : List Scalar}

/-- A value without a quotation mark that has a separator behind it. -/
def Delimited (sep : List Char) : Scalar → Prop
  | .text s => ¬('"' :: sep) <:+: s.toList
  | _ => True

instance (sep : List Char) : DecidablePred (Delimited sep)
  | .text s => inferInstanceAs (Decidable (¬('"' :: sep) <:+: s.toList))
  | .bool _ => .isTrue trivial
  | .number _ => .isTrue trivial

/-- Behind the text that runs on there is another value, and what it goes on as is not delimited. -/
theorem RunsInto.exists_not_delimited (h : RunsInto sep xs ys) :
    ∃ i, i + 1 < xs.length ∧ ∃ s ∈ ys[i]?, ¬s.Delimited sep := by
  induction h with
  | @here u v xs ys hquoted h =>
    have hne : xs ≠ [] := by
      rintro rfl
      simp [row] at h
    have hlonger : ('"' :: sep) <:+: (u ++ "\"" ++ String.ofList sep ++ v).toList :=
      ⟨u.toList, v.toList, by simp⟩
    exact ⟨0, by simpa [List.length_pos_iff] using hne, _, rfl, not_not_intro hlonger⟩
  | there _ ih =>
    obtain ⟨i, hi, hitem⟩ := ih
    exact ⟨i + 1, by simpa using hi, by simpa using hitem⟩

end Scalar

/-! ### Conditions with the same words -/

/-- What stands between the values of the payload. -/
def Operator.separator (op : Operator) : List Char :=
  match op.payload with
  | .several => [',']
  | _ => " AND ".toList

theorem Operator.separates_separator (op : Operator) : Scalar.Separates op.separator := by
  rw [separator]
  split
  · exact ⟨by decide, endsValue_cons (by decide) _, by decide⟩
  · exact ⟨by decide, endsValue_cons (by decide) _, by decide⟩

namespace Condition

open Scalar

variable {catalog : Catalog} {c d : Condition}

/-- **A condition runs into another one** if its payload does. -/
def RunsInto (c d : Condition) : Prop :=
  c.fieldKey = d.fieldKey ∧ c.operator = d.operator ∧
    Scalar.RunsInto c.operator.separator c.values d.values

/-- The values that another one may stand behind when they are read: all values of a list, and the
lower end of a range. -/
def leading (c : Condition) : List Scalar :=
  match c.operator.payload with
  | .several => c.values
  | .pair => c.values.take 1
  | _ => []

/-- None of these has a quotation mark with a separator behind it. -/
def Delimited (c : Condition) : Prop := ∀ s ∈ c.leading, s.Delimited c.operator.separator

instance (c : Condition) : Decidable c.Delimited := List.decidableBAll _ _

/-- Payloads of the same operator are the same if their values are. -/
theorem value_eq_iff (hop : c.operator = d.operator) (hc : c.operator.Wants c.value)
    (hd : d.operator.Wants d.value) : c.value = d.value ↔ c.values = d.values := by
  rw [← hop] at hd
  rcases wants_both hc hd with ⟨-, hv, hw⟩ | ⟨-, s, t, hv, hw⟩ | ⟨-, s, s', t, t', hv, hw⟩ |
    ⟨-, xs, ys, -, -, hv, hw⟩
  all_goals simp [values, hv, hw, Operand.items]

/-- **Payloads of the same operator** are written the same if their rows of values are. -/
theorem describePayload_eq_iff (hop : c.operator = d.operator) (hc : c.operator.Wants c.value)
    (hd : d.operator.Wants d.value) :
    c.describePayload.toList = d.describePayload.toList ↔
      row c.operator.separator c.values = row c.operator.separator d.values := by
  obtain ⟨op, key, value⟩ := c
  obtain ⟨op', key', value'⟩ := d
  obtain rfl : op = op' := hop
  rcases wants_both hc hd with ⟨hp, rfl, rfl⟩ | ⟨hp, s, t, rfl, rfl⟩ |
    ⟨hp, s, s', t, t', rfl, rfl⟩ | ⟨hp, xs, ys, -, -, rfl, rfl⟩
  · simp [describePayload, values, hp]
  · simp [describePayload, values, hp, Operand.items, row]
  · simp [describePayload, describePayload.nth, values, hp, Operand.items, Operator.separator,
      row_eq_intercalate, List.intercalate_cons_cons]
  · simp [describePayload, values, hp, Operand.items, Operator.separator, row_eq_intercalate,
      Function.comp_def]

/-- Conditions on a field are written the same if they have the same operator and their payloads are
written the same. -/
theorem describe_eq_iff (hc : c.operator.Wants c.value) (hd : d.operator.Wants d.value)
    (hkey : c.fieldKey = d.fieldKey) :
    c.describe = d.describe ↔
      c.operator = d.operator ∧ c.describePayload.toList = d.describePayload.toList := by
  constructor
  · intro h
    have hchars := congrArg String.toList h
    rw [describe_toList, describe_toList, hkey, List.append_cancel_left_eq,
      List.cons.injEq] at hchars
    have hnil : EndsCondition [] := by simp [EndsCondition]
    have hends : EndsCondition c.describePayload.toList := by
      simpa using endsCondition_payload hc hnil
    have hends' : EndsCondition d.describePayload.toList := by
      simpa using endsCondition_payload hd hnil
    exact Operator.eq_and_eq_of_append hends hends' hchars.2
  · rintro ⟨hop, hpayload⟩
    apply String.toList_injective
    rw [describe_toList, describe_toList, hkey, hop, hpayload]

/-- A condition that runs into another one leaves that one with a text that is not delimited. -/
theorem RunsInto.not_delimited (hc : c.operator.Wants c.value) (hd : d.operator.Wants d.value)
    (h : c.RunsInto d) : ¬d.Delimited := by
  obtain ⟨-, hop, hruns⟩ := h
  obtain ⟨i, hi, s, hs, hnot⟩ := hruns.exists_not_delimited
  rw [← hop] at hd
  rw [hop] at hnot
  intro hdelimited
  have hleading : s ∈ d.leading := by
    rcases wants_both hc hd with ⟨-, hv, -⟩ | ⟨-, x, y, hv, -⟩ | ⟨hp, x, x', y, y', hv, -⟩ |
      ⟨hp, xs, ys, -, -, hv, -⟩
    · simp [values, hv] at hi
    · simp [values, hv, Operand.items] at hi
    · obtain rfl : i = 0 := by
        simp [values, hv, Operand.items] at hi
        omega
      have hfirst : (d.values.take 1)[0]? = some s := by
        rw [List.getElem?_take_of_lt Nat.one_pos]
        exact hs
      rw [leading, ← hop, hp]
      exact List.mem_of_getElem? hfirst
    · rw [leading, ← hop, hp]
      exact List.mem_of_getElem? hs
  exact hnot (hdelimited s hleading)

/-- **Which conditions on a field have the same words.** Take two conditions on a field that go with
a catalog. They have the same words exactly if they are the same, or one of them runs into the
other. If both are delimited, they have the same words only if they are the same. -/
theorem describe_eq_iff_runsInto (hc : c.check catalog = .ok ()) (hd : d.check catalog = .ok ())
    (hkey : c.fieldKey = d.fieldKey) :
    (c.describe = d.describe ↔ c = d ∨ c.RunsInto d ∨ d.RunsInto c) ∧
      (c.Delimited → d.Delimited → (c.describe = d.describe ↔ c = d)) := by
  obtain ⟨f, hf, hfkey, -, hcwants, hctype⟩ := (check_eq_ok_iff.1 hc).typed
  obtain ⟨g, hg, hgkey, -, hdwants, hdtype⟩ := (check_eq_ok_iff.1 hd).typed
  obtain rfl : f = g := Catalog.eq_of_key_eq hf hg (by rw [hfkey, hgkey, hkey])
  have heq : c = d ↔ c.operator = d.operator ∧ c.value = d.value := by
    obtain ⟨op, key, value⟩ := c
    obtain ⟨op', key', value'⟩ := d
    obtain rfl : key = key' := hkey
    simp
  have hwords : c.describe = d.describe ↔ c = d ∨ c.RunsInto d ∨ d.RunsInto c := by
    rw [describe_eq_iff hcwants hdwants hkey, heq]
    by_cases hop : c.operator = d.operator
    · rw [describePayload_eq_iff hop hcwants hdwants, value_eq_iff hop hcwants hdwants,
        row_eq_iff c.operator.separates_separator hctype hdtype]
      simp [RunsInto, hop, hkey]
    · simp [RunsInto, hop, Ne.symm hop]
  refine ⟨hwords, fun hcdelimited hddelimited => ?_⟩
  rw [hwords]
  constructor
  · rintro (h | h | h)
    · exact h
    · exact absurd hddelimited (h.not_delimited hcwants hdwants)
    · exact absurd hcdelimited (h.not_delimited hdwants hcwants)
  · exact Or.inl

/-- The condition that the country is one of a list of texts. -/
def countries (items : List String) : Condition :=
  ⟨.oneOf, "txn.country", some (.list (items.map .text))⟩

/-- The condition that the time is between two texts. -/
def times (low high : String) : Condition :=
  ⟨.between, "txn.timestamp", some (.list [.text low, .text high])⟩

theorem describe_ne_of_countries :
    (countries ["N\"Y", "L,A"]).check .builtin = .ok () ∧
      (countries ["N\"Y\"", "L", "A"]).check .builtin = .ok () ∧
      (countries ["N\"Y", "L,A"]).Delimited ∧ (countries ["N\"Y\"", "L", "A"]).Delimited ∧
      (countries ["N\"Y", "L,A"]).describe ≠ (countries ["N\"Y\"", "L", "A"]).describe := by
  have hcheck : (countries ["N\"Y", "L,A"]).check .builtin = .ok () := by decide +kernel
  have hcheck' : (countries ["N\"Y\"", "L", "A"]).check .builtin = .ok () := by decide +kernel
  have hdelimited : (countries ["N\"Y", "L,A"]).Delimited := by decide
  have hdelimited' : (countries ["N\"Y\"", "L", "A"]).Delimited := by decide
  refine ⟨hcheck, hcheck', hdelimited, hdelimited', fun h => ?_⟩
  have heq := ((describe_eq_iff_runsInto hcheck hcheck' rfl).2 hdelimited hdelimited').1 h
  exact absurd heq (by decide)

/-- **Payloads that run into others**: a list of two texts and one of a single text, and two ranges.
All of them go with the catalog of payment transactions. -/
theorem ambiguous_payloads :
    ((countries ["N Y", "L A"]).check .builtin = .ok () ∧
      (countries ["N Y\",\"L A"]).check .builtin = .ok () ∧
      (countries ["N Y", "L A"]).describe = (countries ["N Y\",\"L A"]).describe ∧
      countries ["N Y", "L A"] ≠ countries ["N Y\",\"L A"]) ∧
    ((times "a b" "c d\" AND \"e f").check .builtin = .ok () ∧
      (times "a b\" AND \"c d" "e f").check .builtin = .ok () ∧
      (times "a b" "c d\" AND \"e f").describe = (times "a b\" AND \"c d" "e f").describe ∧
      times "a b" "c d\" AND \"e f" ≠ times "a b\" AND \"c d" "e f") := by
  refine ⟨⟨?_, ?_, ?_, ?_⟩, ⟨?_, ?_, ?_, ?_⟩⟩ <;> decide +kernel

end Condition

end Rulebook
