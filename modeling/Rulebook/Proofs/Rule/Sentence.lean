import Rulebook.Proofs.Rule.Uniform
import Rulebook.Proofs.Rule.Wording

/-!
# What a sentence says of a rule

The sentence for a rule is its line of symbols, written one after another. For rules with readable
conditions this is undone: at each place of the line only some symbols can stand, and these start
differently. So **a sentence says the line of a rule, and no more**.

Which conditions, connectives and negations there are, and where the parentheses are, is therefore
settled by the sentence. What it means is settled as soon as it is known which connective binds
tighter: two rules that keep to the same convention and have the same sentence mean the same. If
one of them needs no convention, no more has to be known. Without either they need not mean the
same, since a group in a group gets no parentheses.

* `Rulebook.Rule.describe_toList` – the words of a rule are those of its symbols;
* `Rulebook.Rule.symbols_eq_of_describe_eq` – **rules with the same words have the same line**;
* `Rulebook.Rule.symbols_and_holds_eq_of_sentence_eq` – what rules with the same sentence have in
  common;
* `Rulebook.Rule.Ambiguous` – rules that a sentence does not tell apart.
-/

namespace Rulebook

/-! ### The words of a line -/

/-- The text of a symbol. -/
def Symbol.text : Symbol → List Char
  | .condition c => c.describe.toList
  | .not => "NOT ".toList
  | .opening => ['(']
  | .closing => [')']
  | .connective c => ' ' :: (c.word.toList ++ [' '])

/-- The text of a line. -/
def Symbol.line (ts : List Symbol) : List Char := ts.flatMap Symbol.text

namespace Symbol

@[simp] theorem line_nil : line [] = [] := rfl

@[simp] theorem line_cons (t : Symbol) (ts : List Symbol) :
    line (t :: ts) = t.text ++ line ts := rfl

@[simp] theorem line_append (ts us : List Symbol) : line (ts ++ us) = line ts ++ line us :=
  List.flatMap_append

/-- Lines with a connective in between are written with its word in between. -/
theorem line_intercalate (c : Connective) (lines : List (List Symbol)) :
    line ([.connective c].intercalate lines) =
      (' ' :: (c.word.toList ++ [' '])).intercalate (lines.map line) := by
  induction lines with
  | nil => rfl
  | cons ts lines ih =>
    cases lines with
    | nil => simp
    | cons us lines =>
      rw [List.intercalate_cons_cons, line_append, line_append, ih]
      simp [List.intercalate_cons_cons, text]

end Symbol

namespace Rule

open Rulebook.Symbol

/-- How a negation is written, in one equation for all that is no condition. -/
theorem describe_not {child : Rule} (h : ∀ c, child ≠ .condition c) :
    describe (.not child) = "NOT (" ++ describe child ++ ")" := by
  cases child with
  | condition c => exact absurd rfl (h c)
  | group c children => rfl
  | not child => rfl

mutual

/-- **The words of a rule are those of its symbols.** -/
theorem describe_toList : ∀ r : Rule, r.describe.toList = line r.symbols
  | .group c children => by
    rw [describe, symbols, line_intercalate, ← describeAll_toList children]
    simp [String.toList_intercalate]
  | .not child => by
    rcases child.condition_or_ne with ⟨c, rfl⟩ | hchild
    · simp [describe, symbols, text]
    · rw [describe_not hchild, symbols_not hchild]
      simp [describe_toList child, text]
  | .condition c => by
    simp [describe, symbols, text]

theorem describeAll_toList :
    ∀ rs : List Rule, (describeAll rs).map String.toList = (symbolsAll rs).map line
  | [] => rfl
  | r :: rs => by
    rw [describeAll, symbolsAll, List.map_cons, List.map_cons, describe_toList r,
      describeAll_toList rs]

end

end Rule

/-! ### Where symbols can stand -/

/-- A place in a line. -/
inductive Place where
  /-- A rule is about to begin. -/
  | start
  /-- What is negated is about to begin. -/
  | negated
  /-- A rule has ended. -/
  | finish
deriving DecidableEq, Repr

/-- **The lines that can follow at a place.** -/
inductive Place.Allows : Place → List Symbol → Prop
  /-- A rule begins with a condition. -/
  | condition {c : Condition} {ts : List Symbol} (h : Allows finish ts) :
    Allows start (.condition c :: ts)
  /-- A rule begins with a negation. -/
  | not {ts : List Symbol} (h : Allows negated ts) : Allows start (.not :: ts)
  /-- A condition is negated. -/
  | negatedCondition {c : Condition} {ts : List Symbol} (h : Allows finish ts) :
    Allows negated (.condition c :: ts)
  /-- What stands in parentheses is negated. -/
  | opening {ts : List Symbol} (h : Allows start ts) : Allows negated (.opening :: ts)
  /-- A parenthesis is closed. -/
  | closing {ts : List Symbol} (h : Allows finish ts) : Allows finish (.closing :: ts)
  /-- Another rule begins behind a connective. -/
  | connective {c : Connective} {ts : List Symbol} (h : Allows start ts) :
    Allows finish (.connective c :: ts)
  /-- The line ends. -/
  | nil : Allows finish []

namespace Rule

open Rulebook.Symbol

mutual

/-- The line of a rule can stand where a rule begins, and then the rule has ended. -/
theorem allows_symbols_append : ∀ r : Rule, r.Branched → ∀ ts, Place.finish.Allows ts →
    Place.start.Allows (r.symbols ++ ts)
  | .group c children, hbranched, ts, h => by
    obtain ⟨hbranches, hbelow⟩ := List.forall_mem_cons.1 hbranched
    exact allows_intercalate_append c children (ne_nil_of_branches hbranches) hbelow ts h
  | .not child, hbranched, ts, h => by
    rcases child.condition_or_ne with ⟨c, rfl⟩ | hchild
    · exact .not (.negatedCondition h)
    · have hrest := allows_symbols_append child (List.forall_mem_cons.1 hbranched).2
        (.closing :: ts) (.closing h)
      rw [symbols_not hchild]
      simpa using Place.Allows.not (.opening hrest)
  | .condition c, _, ts, h => .condition h

theorem allows_intercalate_append (c : Connective) : ∀ rs : List Rule, rs ≠ [] →
    (∀ n ∈ nodesAll rs, n.Branches) → ∀ ts, Place.finish.Allows ts →
    Place.start.Allows ([.connective c].intercalate (symbolsAll rs) ++ ts)
  | [], hne, _, _, _ => absurd rfl hne
  | [r], _, hbranched, ts, h => by
    have hr := allows_symbols_append r (List.forall_mem_append.1 hbranched).1 ts h
    simpa [symbolsAll] using hr
  | r :: r' :: rs, _, hbranched, ts, h => by
    obtain ⟨hr, hrs⟩ := List.forall_mem_append.1 hbranched
    have hrest := allows_intercalate_append c (r' :: rs) (List.cons_ne_nil r' rs) hrs ts h
    have hall := allows_symbols_append r hr _ (.connective (c := c) hrest)
    simpa [symbolsAll, List.intercalate_cons_cons] using hall

end

theorem allows_symbols {r : Rule} (h : r.Branched) : Place.start.Allows r.symbols := by
  simpa using allows_symbols_append r h [] .nil

end Rule

/-! ### Lines with the same text -/

namespace Symbol

variable {catalog : Catalog} {ts us : List Symbol} {c : Condition}

/-- The conditions of a line go with a catalog and are readable. -/
def Clear (catalog : Catalog) (ts : List Symbol) : Prop :=
  ∀ c, .condition c ∈ ts → c.WellFormed catalog ∧ c.Readable

theorem Clear.tail {t : Symbol} (h : Clear catalog (t :: ts)) : Clear catalog ts :=
  fun c hc => h c (List.mem_cons_of_mem t hc)

theorem Clear.head (h : Clear catalog (.condition c :: ts)) :
    c.WellFormed catalog ∧ c.Readable :=
  h c List.mem_cons_self

/-- What follows where a rule has ended ends a condition. -/
theorem endsCondition_line (h : Place.finish.Allows ts) : EndsCondition (line ts) := by
  cases h with
  | closing h => simp [EndsCondition, text]
  | connective h => simp [EndsCondition, text]
  | nil => simp [EndsCondition]

/-- A readable condition does not start like a negation. -/
theorem describe_append_ne_not (hc : c.Readable) (xs ys : List Char) :
    c.describe.toList ++ xs ≠ "NOT ".toList ++ ys := by
  intro h
  rw [Condition.describe_toList, List.append_assoc] at h
  have hsplit : "NOT ".toList ++ ys = "NOT".toList ++ ' ' :: ys := rfl
  rw [hsplit, List.cons_append] at h
  exact hc.negation (Condition.fieldKey_eq_and_eq_of_append hc.blank (by decide) h).1

/-- A readable condition does not start with a parenthesis. -/
theorem describe_append_ne_opening (hc : c.WellFormed catalog) (hc' : c.Readable)
    (xs ys : List Char) : c.describe.toList ++ xs ≠ '(' :: ys := by
  intro h
  rw [Condition.describe_toList] at h
  cases hkey : c.fieldKey.toList with
  | nil => exact hc.named (String.toList_injective (by rw [hkey]; rfl))
  | cons x rest =>
    rw [hkey] at h
    have hx : x = '(' := (List.cons.inj h).1
    exact hc'.opening (by rw [hkey, hx]; rfl)

theorem eq_and_eq_of_condition (hts : Clear catalog (.condition c :: ts)) {d : Condition}
    (hus : Clear catalog (.condition d :: us)) (hfinish : Place.finish.Allows ts)
    (hfinish' : Place.finish.Allows us)
    (h : line (.condition c :: ts) = line (.condition d :: us)) : c = d ∧ line ts = line us :=
  Condition.eq_and_eq_of_describe_append hts.head.1 hus.head.1 hts.head.2 hus.head.2
    (endsCondition_line hfinish) (endsCondition_line hfinish') h

/-- **Lines with readable conditions and the same text are the same**, from any place on. -/
theorem eq_of_line_eq {place : Place} (hts : place.Allows ts) (hus : place.Allows us)
    (hts' : Clear catalog ts) (hus' : Clear catalog us) (h : line ts = line us) : ts = us := by
  induction hts generalizing us with
  | @condition c ts hfinish ih =>
    cases hus with
    | condition hfinish' =>
      obtain ⟨rfl, hrest⟩ := eq_and_eq_of_condition hts' hus' hfinish hfinish' h
      rw [ih hfinish' hts'.tail hus'.tail hrest]
    | not _ => exact absurd h (describe_append_ne_not hts'.head.2 _ _)
  | @not ts hnegated ih =>
    cases hus with
    | condition _ => exact absurd h.symm (describe_append_ne_not hus'.head.2 _ _)
    | not hnegated' => rw [ih hnegated' hts'.tail hus'.tail (List.append_cancel_left h)]
  | @negatedCondition c ts hfinish ih =>
    cases hus with
    | negatedCondition hfinish' =>
      obtain ⟨rfl, hrest⟩ := eq_and_eq_of_condition hts' hus' hfinish hfinish' h
      rw [ih hfinish' hts'.tail hus'.tail hrest]
    | opening _ => exact absurd h (describe_append_ne_opening hts'.head.1 hts'.head.2 _ _)
  | @opening ts hstart ih =>
    cases hus with
    | negatedCondition _ =>
      exact absurd h.symm (describe_append_ne_opening hus'.head.1 hus'.head.2 _ _)
    | opening hstart' => rw [ih hstart' hts'.tail hus'.tail (List.append_cancel_left h)]
  | @closing ts hfinish ih =>
    cases hus with
    | closing hfinish' => rw [ih hfinish' hts'.tail hus'.tail (List.append_cancel_left h)]
    | connective _ => simp [text] at h
    | nil => simp [text] at h
  | @connective c ts hstart ih =>
    cases hus with
    | closing _ => simp [text] at h
    | @connective d us hstart' =>
      have hword : c = d := by
        cases c <;> cases d <;> first | rfl | simp [text, Connective.word] at h
      subst hword
      rw [ih hstart' hts'.tail hus'.tail (List.append_cancel_left h)]
    | nil => simp [text] at h
  | nil =>
    cases hus with
    | closing _ => simp [text] at h
    | connective _ => simp [text] at h
    | nil => rfl

end Symbol

/-! ### Rules with the same sentence -/

namespace Rule

open Rulebook.Symbol

variable {catalog : Catalog} {r s : Rule}

/-- **The readable rules**: their conditions are. -/
def Readable (r : Rule) : Prop := ∀ c, .condition c ∈ r.nodes → c.Readable

mutual

/-- The conditions in the line of a rule are those of its nodes. -/
theorem condition_mem_symbols {c : Condition} :
    ∀ r : Rule, .condition c ∈ r.symbols → .condition c ∈ r.nodes
  | .group d children, h => by
    exact List.mem_cons_of_mem _ (condition_mem_intercalate d children h)
  | .not child, h => by
    rcases child.condition_or_ne with ⟨d, rfl⟩ | hchild
    · simpa [symbols, nodes] using h
    · rw [symbols_not hchild] at h
      have hbelow : .condition c ∈ child.symbols := by simpa using h
      exact List.mem_cons_of_mem _ (condition_mem_symbols child hbelow)
  | .condition d, h => by simpa [symbols, nodes] using h

theorem condition_mem_intercalate {c : Condition} (d : Connective) :
    ∀ rs : List Rule, .condition c ∈ [.connective d].intercalate (symbolsAll rs) →
      .condition c ∈ nodesAll rs
  | [], h => by simp [symbolsAll] at h
  | [r], h => by
    have hr : .condition c ∈ r.symbols := by simpa [symbolsAll] using h
    exact List.mem_append_left _ (condition_mem_symbols r hr)
  | r :: r' :: rs, h => by
    have hcases : .condition c ∈ r.symbols ∨
        .condition c ∈ [.connective d].intercalate (symbolsAll (r' :: rs)) := by
      simpa [symbolsAll, List.intercalate_cons_cons] using h
    rcases hcases with hr | hrs
    · exact List.mem_append_left _ (condition_mem_symbols r hr)
    · exact List.mem_append_right _ (condition_mem_intercalate d (r' :: rs) hrs)

end

theorem clear_symbols (hcheck : r.check catalog = .ok ()) (hreadable : r.Readable) :
    Clear catalog r.symbols := by
  intro c hc
  have hnode := condition_mem_symbols r hc
  exact ⟨(wellFormed_iff_nodes r).1 (check_eq_ok_iff.1 hcheck) _ hnode, hreadable c hnode⟩

/-- **Rules with the same words have the same line.** -/
theorem symbols_eq_of_describe_eq (hr : r.check catalog = .ok ()) (hs : s.check catalog = .ok ())
    (hr' : r.Readable) (hs' : s.Readable) (h : r.describe = s.describe) :
    r.symbols = s.symbols := by
  refine eq_of_line_eq (allows_symbols (.of_check hr)) (allows_symbols (.of_check hs))
    (clear_symbols hr hr') (clear_symbols hs hs') ?_
  rw [← describe_toList, h, describe_toList]

theorem sentence_eq_iff {d : Decision} : r.sentence d = s.sentence d ↔ r.describe = s.describe := by
  constructor
  · intro h
    have hchars := congrArg String.toList h
    simp only [sentence, String.toList_append, List.append_cancel_left_eq] at hchars
    exact String.toList_injective hchars
  · intro h
    rw [sentence, sentence, h]

/-- **What a sentence says of a rule.** Take two rules that go with a catalog, are readable, and have
the same sentence. They have the same line, that is, the same conditions, connectives, negations and
parentheses in the same order. And they mean the same if they keep to the same convention on which
connective binds tighter, and also if one of them, whatever the other is like, has no group directly
under a group of the other connective. -/
theorem symbols_and_holds_eq_of_sentence_eq (hr : r.check catalog = .ok ())
    (hs : s.check catalog = .ok ()) (hr' : r.Readable) (hs' : s.Readable) {d : Decision}
    (h : r.sentence d = s.sentence d) :
    r.symbols = s.symbols ∧
      ((∃ tight, r.Layered tight ∧ s.Layered tight) ∨ r.Uniform ∨ s.Uniform →
        ∀ truth, r.holds truth = s.holds truth) := by
  have hline : r.symbols = s.symbols :=
    symbols_eq_of_describe_eq hr hs hr' hs' (sentence_eq_iff.1 h)
  have hrBranched : r.Branched := .of_check hr
  have hsBranched : s.Branched := .of_check hs
  refine ⟨hline, ?_⟩
  rintro (⟨tight, hrLayered, hsLayered⟩ | huniform | huniform) truth
  · exact holds_eq_of_symbols_eq hrLayered hsLayered hrBranched hsBranched hline truth
  · exact holds_eq_of_uniform hrBranched hsBranched huniform hline truth
  · exact (holds_eq_of_uniform hsBranched hrBranched huniform hline.symm truth).symm

/-- The condition that the field with a key has a value. -/
def present (key : String) : Condition := ⟨.isNotNull, key, none⟩

theorem readable_present {key : String} (hblank : ' ' ∉ key.toList)
    (hopening : key.toList.head? ≠ some '(') (hnegation : key ≠ "NOT") :
    (present key).Readable :=
  ⟨hblank, hopening, hnegation, nofun⟩

/-- Three conditions in one group. -/
def threePresent : Rule :=
  .group .all [.condition (present "txn.amount"), .condition (present "txn.mcc"),
    .condition (present "txn.country")]

/-- The same conditions, two of them in a group of their own. -/
def twoAndOnePresent : Rule :=
  .group .all [.group .all [.condition (present "txn.amount"), .condition (present "txn.mcc")],
    .condition (present "txn.country")]

theorem holds_eq_of_threePresent :
    threePresent.check .builtin = .ok () ∧ twoAndOnePresent.check .builtin = .ok () ∧
      threePresent.Readable ∧ twoAndOnePresent.Readable ∧ threePresent.Uniform ∧
      threePresent.sentence ⟨"block"⟩ = twoAndOnePresent.sentence ⟨"block"⟩ ∧
      threePresent.symbols = twoAndOnePresent.symbols ∧
      ∀ truth, threePresent.holds truth = twoAndOnePresent.holds truth := by
  have hcheck : threePresent.check .builtin = .ok () := by decide +kernel
  have hcheck' : twoAndOnePresent.check .builtin = .ok () := by decide +kernel
  have hkeys : (present "txn.amount").Readable ∧ (present "txn.mcc").Readable ∧
      (present "txn.country").Readable :=
    ⟨readable_present (by decide) (by decide) (by decide),
      readable_present (by decide) (by decide) (by decide),
      readable_present (by decide) (by decide) (by decide)⟩
  have hreadable : threePresent.Readable := by
    simpa [Readable, threePresent, nodes, nodesAll] using hkeys
  have hreadable' : twoAndOnePresent.Readable := by
    simpa [Readable, twoAndOnePresent, nodes, nodesAll] using hkeys
  have huniform : threePresent.Uniform := by
    simp [Uniform, threePresent, nodes, nodesAll, Unbroken, kind]
  have hsentence : threePresent.sentence ⟨"block"⟩ = twoAndOnePresent.sentence ⟨"block"⟩ := by
    decide +kernel
  obtain ⟨hline, hholds⟩ :=
    symbols_and_holds_eq_of_sentence_eq hcheck hcheck' hreadable hreadable' hsentence
  exact ⟨hcheck, hcheck', hreadable, hreadable', huniform, hsentence, hline,
    hholds (Or.inr (Or.inl huniform))⟩

/-! ### Sentences that say too little -/

/-- **A group in a group gets no parentheses**, so it is not to be seen which of the two is inside
the other. -/
theorem describe_regrouped (a b c : Rule) :
    describe (.group .all [a, .group .any [b, c]]) =
      describe (.group .any [.group .all [a, b], c]) := by
  simp [describe, describeAll, Connective.word, String.append_assoc]

/-- Quotation marks inside a text look like those around two texts. -/
theorem describe_quotation (key : String) {s t : String} (hs : isBare s = false)
    (ht : isBare t = false) :
    describe (.condition ⟨.oneOf, key, some (.list [.text (s ++ "\",\"" ++ t)])⟩) =
      describe (.condition ⟨.oneOf, key, some (.list [.text s, .text t])⟩) := by
  have hboth : isBare (s ++ "\",\"" ++ t) = false := isBare_of_mem_quote (by simp)
  apply String.toList_injective
  simp only [describe, Condition.describe, Condition.describePayload, Operator.payload,
    Operand.items, Option.map_some, Option.getD_some, List.map_cons, List.map_nil,
    Scalar.describe, hs, ht, hboth, Bool.false_eq_true, if_false]
  simp

/-- A key with blanks in it looks like words of its own. -/
theorem describe_blank (k l : String) :
    describe (.condition (present (k ++ " IS NOT NULL AND " ++ l))) =
      describe (.group .all [.condition (present k), .condition (present l)]) := by
  simp [describe, describeAll, present, Condition.describe, Condition.describePayload,
    Operator.phrase, Operator.payload, Connective.word, String.append_assoc]

/-- The key `NOT` looks like a negation. -/
theorem describe_negation (value : Option Operand) :
    describe (.condition ⟨.notOneOf, "NOT", value⟩) =
      describe (.not (.condition ⟨.oneOf, "NOT", value⟩)) := by
  apply String.toList_injective
  simp [describe, Condition.describe, Condition.describePayload, Operator.phrase,
    Operator.payload]

/-- A key that starts with a parenthesis looks like what stands in parentheses. -/
theorem describe_opening (k l m : String) :
    describe (.group .all [.not (.condition (present ("(" ++ k))),
        .not (.group .any [.condition (present l), .condition (present m)])]) =
      describe (.not (.group .any [.group .all [.condition (present k),
        .not (.condition (present ("(" ++ l)))], .condition (present m)])) := by
  apply String.toList_injective
  simp [describe, describeAll, present, Condition.describe, Condition.describePayload,
    Operator.phrase, Operator.payload, Connective.word]

/-- Two rules that go with a catalog and have the same sentences, but do not mean the same. -/
def Ambiguous (catalog : Catalog) (r s : Rule) : Prop :=
  r.check catalog = .ok () ∧ s.check catalog = .ok () ∧ (∀ d, r.sentence d = s.sentence d) ∧
    ∃ truth, r.holds truth ≠ s.holds truth

/-- The catalog of texts under some keys. -/
def textCatalog (keys : List String) : Catalog := .ofList (keys.map fun k => ⟨k, k, .string⟩)

/-- **Sentences that stand for two rules**: groups in groups, quotation marks in texts, and keys
with blanks, the key `NOT`, and keys that start with a parenthesis. -/
theorem ambiguous_sentences :
    Ambiguous .builtin
      (.group .all [.condition (present "txn.amount"),
        .group .any [.condition (present "txn.mcc"), .condition (present "txn.country")]])
      (.group .any [.group .all [.condition (present "txn.amount"),
        .condition (present "txn.mcc")], .condition (present "txn.country")]) ∧
    Ambiguous .builtin
      (.condition ⟨.oneOf, "txn.country", some (.list [.text ("N Y" ++ "\",\"" ++ "L A")])⟩)
      (.condition ⟨.oneOf, "txn.country", some (.list [.text "N Y", .text "L A"])⟩) ∧
    Ambiguous (textCatalog ["a", "b", "a IS NOT NULL AND b"])
      (.condition (present ("a" ++ " IS NOT NULL AND " ++ "b")))
      (.group .all [.condition (present "a"), .condition (present "b")]) ∧
    Ambiguous (textCatalog ["NOT"])
      (.condition ⟨.notOneOf, "NOT", some (.list [.text "a"])⟩)
      (.not (.condition ⟨.oneOf, "NOT", some (.list [.text "a"])⟩)) ∧
    Ambiguous (textCatalog ["a", "b", "c", "(a", "(b"])
      (.group .all [.not (.condition (present ("(" ++ "a"))),
        .not (.group .any [.condition (present "b"), .condition (present "c")])])
      (.not (.group .any [.group .all [.condition (present "a"),
        .not (.condition (present ("(" ++ "b")))], .condition (present "c")])) := by
  refine ⟨⟨by decide +kernel, by decide +kernel,
      fun d => sentence_eq_iff.2 (describe_regrouped _ _ _), (· == present "txn.country"),
      by decide +kernel⟩,
    ⟨by decide +kernel, by decide +kernel,
      fun d => sentence_eq_iff.2 (describe_quotation _ (by decide) (by decide)),
      (· == ⟨.oneOf, "txn.country", some (.list [.text "N Y", .text "L A"])⟩),
      by decide +kernel⟩,
    ⟨by decide +kernel, by decide +kernel, fun d => sentence_eq_iff.2 (describe_blank _ _),
      (· == present ("a" ++ " IS NOT NULL AND " ++ "b")), by decide +kernel⟩,
    ⟨by decide +kernel, by decide +kernel, fun d => sentence_eq_iff.2 (describe_negation _),
      fun _ => true, by decide +kernel⟩,
    ⟨by decide +kernel, by decide +kernel, fun d => sentence_eq_iff.2 (describe_opening _ _ _),
      (· == present "a"), by decide +kernel⟩⟩

end Rule

end Rulebook
