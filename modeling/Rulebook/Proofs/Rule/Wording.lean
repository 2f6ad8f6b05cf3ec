import Rulebook.Proofs.Number.ReadBack
import Rulebook.Proofs.Rule.WellFormed
import Rulebook.Proofs.Text.Words

/-!
# The words of a condition stand for one condition

A condition is written as the key of its field, a phrase for its operator, and its values. Here
this is undone from left to right: the key ends at the first blank, no phrase goes on where another
ends, and a value ends either at the first character that it cannot hold or at its closing
quotation mark. So two conditions with the same text, and with whatever comes behind it, are the
same condition.

Values are written the same for all types: the number `1` and the text `1` look alike. What tells
them apart is the type of the field, and that goes with the key.

There are two things that the text does not mark. A quotation mark inside a text is not told from
the one that closes it, and a key with a blank, or one that looks like a negation or like an opening
parenthesis, is not told from other words. Conditions without these are the **readable** ones.

* `Rulebook.Condition.Readable` – the readable conditions;
* `Rulebook.Condition.eq_and_eq_of_describe_append` – the words of a readable condition are **its
  own**.
-/

namespace Rulebook

/-! ### Where words end -/

/-- The characters that stand without quotation marks. -/
def isBareChar (c : Char) : Bool := c.isAlphanum || c == '_' || c == '.' || c == '-'

theorem isBare_iff {s : String} :
    isBare s = true ↔ s ≠ "" ∧ ∀ c ∈ s.toList, isBareChar c = true := by
  simp [isBare, isBareChar]

/-- What has a quotation mark in it does not stand without quotation marks. -/
theorem isBare_of_mem_quote {s : String} (h : '"' ∈ s.toList) : isBare s = false := by
  rw [← Bool.not_eq_true, isBare_iff]
  rintro ⟨-, hchars⟩
  exact absurd (hchars '"' h) (by decide)

/-- **A written value**: characters that stand without quotation marks, or a text between two
quotation marks with no other one in it. -/
inductive Written : List Char → Prop
  /-- Without quotation marks. -/
  | bare {cs : List Char} (hne : cs ≠ []) (h : ∀ c ∈ cs, isBareChar c = true) : Written cs
  /-- Between quotation marks. -/
  | quoted {cs : List Char} (h : '"' ∉ cs) : Written ('"' :: (cs ++ ['"']))

/-- What comes behind a value does not belong to it. -/
def EndsValue (cs : List Char) : Prop := ∀ c ∈ cs.head?, isBareChar c = false

theorem endsValue_cons {c : Char} (h : isBareChar c = false) (cs : List Char) :
    EndsValue (c :: cs) := by simpa [EndsValue]

/-- What does not stand without quotation marks does not start with a character that does. -/
theorem not_quote_of_bare {cs us vs : List Char} (hne : cs ≠ [])
    (h : ∀ c ∈ cs, isBareChar c = true) : cs ++ us ≠ '"' :: vs := by
  obtain ⟨c, rest, rfl⟩ := List.exists_cons_of_ne_nil hne
  intro heq
  have hc : c = '"' := (List.cons.inj heq).1
  exact absurd (h c List.mem_cons_self) (by rw [hc]; decide)

/-- **Written values end where they end.** -/
theorem Written.eq_and_eq_of_append {xs ys us vs : List Char} (hx : Written xs) (hy : Written ys)
    (hu : EndsValue us) (hv : EndsValue vs) (h : xs ++ us = ys ++ vs) : xs = ys ∧ us = vs := by
  cases hx with
  | bare hxne hx =>
    cases hy with
    | bare hyne hy => exact Rulebook.eq_and_eq_of_append hx hy hu hv h
    | quoted hy => exact absurd h (not_quote_of_bare hxne hx)
  | quoted hx =>
    cases hy with
    | bare hyne hy => exact absurd h.symm (not_quote_of_bare hyne hy)
    | @quoted ys' hy =>
      rename_i xs'
      have hinner : xs' ++ '"' :: us = ys' ++ '"' :: vs := by simpa using h
      obtain ⟨rfl, hrest⟩ := eq_and_eq_of_append_separator hx hy hinner
      exact ⟨rfl, hrest⟩

/-! ### Values -/

namespace Scalar

/-- A value without a quotation mark in it. -/
def Unquoted : Scalar → Prop
  | .text s => '"' ∉ s.toList
  | _ => True

variable {s t : Scalar} {type : FieldType}

/-- **How a value is written**: with characters that stand without quotation marks, or as a text
between two of them. -/
theorem bare_or_quoted (s : Scalar) :
    (s.describe.toList ≠ [] ∧ ∀ c ∈ s.describe.toList, isBareChar c = true) ∨
      ∃ u, s = .text u ∧ isBare u = false ∧ s.describe.toList = '"' :: (u.toList ++ ['"']) := by
  cases s with
  | bool b => cases b <;> exact Or.inl ⟨by decide, by simp [describe, display, isBareChar]⟩
  | number x =>
    have hne : (Layout.plain.text x).toList ≠ [] := by simpa using Layout.text_ne_empty rfl x
    refine Or.inl ⟨hne, fun c hc => ?_⟩
    rcases Layout.forall_mem_text rfl x c hc with hchar | rfl | rfl
    · simp [isBareChar, hchar]
    · rfl
    · rfl
  | text u =>
    by_cases hbare : isBare u = true
    · obtain ⟨hne, hchars⟩ := isBare_iff.1 hbare
      rw [describe, if_pos hbare]
      exact Or.inl ⟨by simpa using hne, hchars⟩
    · exact Or.inr ⟨u, rfl, by simpa using hbare, by rw [describe, if_neg hbare]; simp⟩

theorem written_of_unquoted (h : s.Unquoted) : Written s.describe.toList := by
  rcases bare_or_quoted s with ⟨hne, hchars⟩ | ⟨u, rfl, -, hquoted⟩
  · exact .bare hne hchars
  · rw [hquoted]
    exact .quoted h

/-- A text between quotation marks does not stand without them. -/
theorem isBare_quoted (s : String) : isBare ("\"" ++ s ++ "\"") = false :=
  isBare_of_mem_quote (by simp)

/-- **Values of a type are told apart** by how they are written. -/
theorem eq_of_describe_eq (hs : s.IsOf type) (ht : t.IsOf type) (h : s.describe = t.describe) :
    s = t := by
  rcases hs with x | b | ⟨u, hnumber, hboolean⟩
  · obtain ⟨y⟩ := ht
    · exact congrArg number (Layout.text_injective rfl h)
    · contradiction
  · rcases ht with - | b' | -
    · cases b <;> cases b' <;> first | rfl | exact absurd h (by decide)
    · contradiction
  · rcases ht with - | - | ⟨v, -, -⟩
    · contradiction
    · contradiction
    · simp only [describe] at h
      split at h <;> split at h
      · rw [h]
      · next hu hv => exact absurd hu (by rw [h, isBare_quoted]; decide)
      · next hu hv => exact absurd hv (by rw [← h, isBare_quoted]; decide)
      · have hchars := congrArg String.toList h
        simp only [String.toList_append, List.append_cancel_left_eq,
          List.append_cancel_right_eq] at hchars
        rw [String.toList_injective hchars]

/-- **A value is told from another one of its type** with anything behind it that does not belong
to it. -/
theorem eq_and_eq_of_append {us vs : List Char} (hs : s.IsOf type) (ht : t.IsOf type)
    (hs' : s.Unquoted) (ht' : t.Unquoted) (hu : EndsValue us) (hv : EndsValue vs)
    (h : s.describe.toList ++ us = t.describe.toList ++ vs) : s = t ∧ us = vs := by
  obtain ⟨hdescribe, hrest⟩ := (written_of_unquoted hs').eq_and_eq_of_append
    (written_of_unquoted ht') hu hv h
  exact ⟨eq_of_describe_eq hs ht (String.toList_injective hdescribe), hrest⟩

/-- Several values with commas in between, up to the closing brace. -/
theorem items_eq_and_eq_of_append {xs ys : List Scalar} {us vs : List Char}
    (hxne : xs ≠ []) (hyne : ys ≠ []) (hx : ∀ s ∈ xs, s.IsOf type ∧ s.Unquoted)
    (hy : ∀ s ∈ ys, s.IsOf type ∧ s.Unquoted)
    (h : [','].intercalate (xs.map fun s => s.describe.toList) ++ '}' :: us =
      [','].intercalate (ys.map fun s => s.describe.toList) ++ '}' :: vs) : xs = ys ∧ us = vs := by
  induction xs generalizing ys with
  | nil => exact absurd rfl hxne
  | cons x xs ih =>
    cases ys with
    | nil => exact absurd rfl hyne
    | cons y ys =>
      obtain ⟨⟨hxtype, hxquote⟩, hxs⟩ := List.forall_mem_cons.1 hx
      obtain ⟨⟨hytype, hyquote⟩, hys⟩ := List.forall_mem_cons.1 hy
      -- Behind the first value there is a comma or the brace.
      have hsplit : ∀ (z : Scalar) (zs : List Scalar) (ws : List Char), ∃ c tail,
          [','].intercalate ((z :: zs).map fun s => s.describe.toList) ++ '}' :: ws =
            z.describe.toList ++ c :: tail ∧ isBareChar c = false ∧
          (zs = [] ∧ c = '}' ∧ tail = ws ∨ zs ≠ [] ∧ c = ',' ∧
            tail = [','].intercalate (zs.map fun s => s.describe.toList) ++ '}' :: ws) := by
        intro z zs ws
        cases zs with
        | nil => exact ⟨'}', ws, by simp, rfl, Or.inl ⟨rfl, rfl, rfl⟩⟩
        | cons w zs =>
          exact ⟨',', _, by simp [List.intercalate_cons_cons], rfl,
            Or.inr ⟨List.cons_ne_nil w zs, rfl, rfl⟩⟩
      obtain ⟨c, tail, hc, hcbare, hctail⟩ := hsplit x xs us
      obtain ⟨d, tail', hd, hdbare, hdtail⟩ := hsplit y ys vs
      rw [hc, hd] at h
      obtain ⟨rfl, hrest⟩ := eq_and_eq_of_append hxtype hytype hxquote hyquote
        (endsValue_cons hcbare tail) (endsValue_cons hdbare tail') h
      obtain ⟨rfl, rfl⟩ := List.cons.inj hrest
      rcases hctail with ⟨rfl, rfl, rfl⟩ | ⟨hxsne, rfl, rfl⟩
      · rcases hdtail with ⟨rfl, -, rfl⟩ | ⟨-, hcomma, -⟩
        · exact ⟨rfl, rfl⟩
        · exact absurd hcomma (by decide)
      · rcases hdtail with ⟨-, hbrace, -⟩ | ⟨hysne, -, htail⟩
        · exact absurd hbrace (by decide)
        · obtain ⟨rfl, hus⟩ := ih hxsne hysne hxs hys htail
          exact ⟨rfl, hus⟩

end Scalar

/-! ### Operators -/

/-- What comes behind a condition: nothing, a blank, or a closing parenthesis. -/
def EndsCondition (cs : List Char) : Prop := ∀ c ∈ cs.head?, c = ' ' ∨ c = ')'

theorem EndsCondition.endsValue {cs : List Char} (h : EndsCondition cs) : EndsValue cs := by
  intro c hc
  rcases h c hc with rfl | rfl <;> rfl

namespace Operator

theorem mem_all (op : Operator) : op ∈ all := by
  cases op <;> decide

/-- No phrase is another one with a blank or a closing parenthesis behind it. -/
theorem phrases_apart : ∀ p ∈ all, ∀ q ∈ all,
    (p.phrase.toList = q.phrase.toList → p = q) ∧
      ¬(p.phrase.toList ++ [' ']) <+: q.phrase.toList ∧
      ¬(p.phrase.toList ++ [')']) <+: q.phrase.toList := by
  decide +kernel

/-- A phrase with a condition's end, or a blank, behind it is not the start of another one. -/
theorem phrase_not_longer {p q : Operator} {rest : List Char} {c : Char}
    (hc : c = ' ' ∨ c = ')') : q.phrase.toList ≠ p.phrase.toList ++ c :: rest := by
  intro h
  obtain ⟨-, hblank, hclosing⟩ := phrases_apart p (mem_all p) q (mem_all q)
  rcases hc with rfl | rfl
  · exact hblank ⟨rest, by simp [h]⟩
  · exact hclosing ⟨rest, by simp [h]⟩

/-- **Phrases end where they end.** -/
theorem eq_and_eq_of_append {p q : Operator} {us vs : List Char} (hu : EndsCondition us)
    (hv : EndsCondition vs) (h : p.phrase.toList ++ us = q.phrase.toList ++ vs) :
    p = q ∧ us = vs := by
  rcases List.append_eq_append_iff.1 h with ⟨ws, hq, hus⟩ | ⟨ws, hp, hvs⟩
  · cases ws with
    | nil =>
      rw [List.append_nil] at hq
      exact ⟨(phrases_apart p (mem_all p) q (mem_all q)).1 hq.symm, hus⟩
    | cons c ws => exact absurd hq (phrase_not_longer (hu c (by simp [hus])))
  · cases ws with
    | nil =>
      rw [List.append_nil] at hp
      exact ⟨(phrases_apart p (mem_all p) q (mem_all q)).1 hp, hvs.symm⟩
    | cons c ws => exact absurd hp (phrase_not_longer (hv c (by simp [hvs])))

end Operator

/-! ### Conditions -/

/-- **The readable conditions**: the key is told from other words, and no text in the payload has a
quotation mark in it. -/
structure Condition.Readable (c : Condition) : Prop where
  /-- The key has no blank in it. -/
  blank : ' ' ∉ c.fieldKey.toList
  /-- The key does not start like what stands in parentheses. -/
  opening : c.fieldKey.toList.head? ≠ some '('
  /-- The key is not the word for a negation. -/
  negation : c.fieldKey ≠ "NOT"
  /-- The values have no quotation marks. -/
  unquoted : ∀ s ∈ c.values, s.Unquoted

namespace Condition

variable {catalog : Catalog} {c d : Condition} {type : FieldType} {us vs : List Char}

theorem describe_toList (c : Condition) :
    c.describe.toList =
      c.fieldKey.toList ++ ' ' :: (c.operator.phrase.toList ++ c.describePayload.toList) := by
  simp [describe]

/-- Two payloads that the same operator wants have the same shape. -/
theorem wants_both {op : Operator} {v w : Option Operand} (hv : op.Wants v) (hw : op.Wants w) :
    (op.payload = .nothing ∧ v = none ∧ w = none) ∨
    (op.payload = .single ∧ ∃ s t, v = some (.scalar s) ∧ w = some (.scalar t)) ∨
    (op.payload = .pair ∧ ∃ s s' t t', v = some (.list [s, s']) ∧ w = some (.list [t, t'])) ∨
    (op.payload = .several ∧ ∃ xs ys, xs ≠ [] ∧ ys ≠ [] ∧
      v = some (.list xs) ∧ w = some (.list ys)) := by
  rw [Operator.wants_iff] at hv hw
  split at hv
  · next hp =>
    split at hw <;> simp_all
  · next low high hp =>
    split at hw <;> simp_all
  · next first rest hp =>
    split at hw <;> simp_all
  · next s hp =>
    split at hw <;> simp_all
  · contradiction

/-- **Payloads of the same operator and the same type are told apart**, with anything behind them
that ends a condition. -/
theorem value_eq_and_eq_of_append (hop : c.operator = d.operator)
    (hc : c.operator.Wants c.value) (hd : d.operator.Wants d.value)
    (hctype : ∀ s ∈ c.values, s.IsOf type ∧ s.Unquoted)
    (hdtype : ∀ s ∈ d.values, s.IsOf type ∧ s.Unquoted) (hu : EndsCondition us)
    (hv : EndsCondition vs)
    (h : c.describePayload.toList ++ us = d.describePayload.toList ++ vs) :
    c.value = d.value ∧ us = vs := by
  obtain ⟨op, key, value⟩ := c
  obtain ⟨op', key', value'⟩ := d
  obtain rfl : op = op' := hop
  rcases wants_both hc hd with ⟨hp, rfl, rfl⟩ | ⟨hp, s, t, rfl, rfl⟩ |
      ⟨hp, s, s', t, t', rfl, rfl⟩ | ⟨hp, xs, ys, hxs, hys, rfl, rfl⟩
  · simpa [describePayload, hp] using h
  · obtain ⟨hstype, hsquote⟩ := hctype s (by simp [values, Operand.items])
    obtain ⟨httype, htquote⟩ := hdtype t (by simp [values, Operand.items])
    have hinner : s.describe.toList ++ us = t.describe.toList ++ vs := by
      simpa [describePayload, hp] using h
    obtain ⟨rfl, hrest⟩ := Scalar.eq_and_eq_of_append hstype httype hsquote htquote hu.endsValue
      hv.endsValue hinner
    exact ⟨rfl, hrest⟩
  · obtain ⟨hstype, hsquote⟩ := hctype s (by simp [values, Operand.items])
    obtain ⟨hstype', hsquote'⟩ := hctype s' (by simp [values, Operand.items])
    obtain ⟨httype, htquote⟩ := hdtype t (by simp [values, Operand.items])
    obtain ⟨httype', htquote'⟩ := hdtype t' (by simp [values, Operand.items])
    have hinner : s.describe.toList ++ (" AND ".toList ++ (s'.describe.toList ++ us)) =
        t.describe.toList ++ (" AND ".toList ++ (t'.describe.toList ++ vs)) := by
      simpa [describePayload, describePayload.nth, Operand.items, hp] using h
    have hends : ∀ cs, EndsValue (" AND ".toList ++ cs) := fun _ => endsValue_cons (by decide) _
    obtain ⟨rfl, hrest⟩ := Scalar.eq_and_eq_of_append hstype httype hsquote htquote
      (hends _) (hends _) hinner
    obtain ⟨rfl, hrest'⟩ := Scalar.eq_and_eq_of_append hstype' httype' hsquote' htquote'
      hu.endsValue hv.endsValue (List.append_cancel_left hrest)
    exact ⟨rfl, hrest'⟩
  · have hinner : [','].intercalate (xs.map fun s => s.describe.toList) ++ '}' :: us =
        [','].intercalate (ys.map fun s => s.describe.toList) ++ '}' :: vs := by
      simpa [describePayload, Operand.items, hp, Function.comp_def] using h
    obtain ⟨rfl, hrest⟩ := Scalar.items_eq_and_eq_of_append hxs hys hctype hdtype hinner
    exact ⟨rfl, hrest⟩

/-- Keys without blanks end at the first blank. -/
theorem fieldKey_eq_and_eq_of_append {k l : String} (hk : ' ' ∉ k.toList) (hl : ' ' ∉ l.toList)
    (h : k.toList ++ ' ' :: us = l.toList ++ ' ' :: vs) : k = l ∧ us = vs := by
  obtain ⟨hkey, hrest⟩ := eq_and_eq_of_append_separator hk hl h
  exact ⟨String.toList_injective hkey, hrest⟩

/-- What is behind a phrase, the payload or what follows the condition. -/
theorem endsCondition_payload (hc : c.operator.Wants c.value) (hu : EndsCondition us) :
    EndsCondition (c.describePayload.toList ++ us) := by
  obtain ⟨op, key, value⟩ := c
  rcases hc.shape with ⟨hp, rfl⟩ | ⟨hp, s, rfl⟩ | ⟨hp, low, high, rfl⟩ | ⟨hp, x, xs, rfl⟩
  · simpa [describePayload, hp] using hu
  all_goals simp [describePayload, hp, EndsCondition]

/-- **The words of a readable condition are its own**: with anything behind them that ends a
condition they are told from those of any other readable condition. -/
theorem eq_and_eq_of_describe_append (hc : c.WellFormed catalog) (hd : d.WellFormed catalog)
    (hc' : c.Readable) (hd' : d.Readable) (hu : EndsCondition us) (hv : EndsCondition vs)
    (h : c.describe.toList ++ us = d.describe.toList ++ vs) : c = d ∧ us = vs := by
  obtain ⟨f, hf, hfkey, -, hcwants, hctype⟩ := hc.typed
  obtain ⟨g, hg, hgkey, -, hdwants, hdtype⟩ := hd.typed
  rw [describe_toList, describe_toList, List.append_assoc, List.append_assoc, List.cons_append,
    List.cons_append, List.append_assoc, List.append_assoc] at h
  obtain ⟨hkey, hphrase⟩ := fieldKey_eq_and_eq_of_append hc'.blank hd'.blank h
  -- The same key is that of the same field, so both have values of one type.
  obtain rfl : f = g := Catalog.eq_of_key_eq hf hg (by rw [hfkey, hgkey, hkey])
  obtain ⟨hop, hpayload⟩ := Operator.eq_and_eq_of_append (endsCondition_payload hcwants hu)
    (endsCondition_payload hdwants hv) hphrase
  obtain ⟨hvalue, hrest⟩ := value_eq_and_eq_of_append hop hcwants hdwants
    (fun s hs => ⟨hctype s hs, hc'.unquoted s hs⟩) (fun s hs => ⟨hdtype s hs, hd'.unquoted s hs⟩)
    hu hv hpayload
  obtain ⟨op, key, value⟩ := c
  obtain ⟨op', key', value'⟩ := d
  obtain rfl : op = op' := hop
  obtain rfl : key = key' := hkey
  obtain rfl : value = value' := hvalue
  exact ⟨rfl, hrest⟩

end Condition

end Rulebook
