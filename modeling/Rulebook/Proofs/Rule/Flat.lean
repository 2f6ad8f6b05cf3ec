import Rulebook.Proofs.Rule.Sentence

/-!
# Flat rules are read back

A rule is **flat** if no group of its stands directly under a group. What a line of symbols leaves
open is where a group ends that stands in another one; in a flat rule none does, so there the line
is as good as the tree. It is turned into the tree by a reader who goes through it once. For each
parenthesis that is open, and for the line as a whole, he keeps the rules read so far and the
connective between them.

With the conditions being told apart by their words, the sentence for a flat rule stands for that
rule alone.

* `Rulebook.Rule.Flat` – the flat rules;
* `Rulebook.TreeReader.step` – **one symbol read**, and `Rulebook.TreeReader.read` – a line;
* `Rulebook.Rule.fills_and_yields` – what reading a flat rule does, by the kind of its node at the
  top;
* `Rulebook.Rule.read_symbols_of_flat` – flat rules are **read back**;
* `Rulebook.Rule.sentence_eq_iff_of_flat` – flat rules with the same sentence are the same.
-/

namespace Rulebook

/-! ### The reader of a line -/

/-- **What has been read** since a parenthesis was opened. -/
structure Branch where
  /-- The rules, the last one first. -/
  rules : List Rule
  /-- The connective between them, if one has been read. -/
  connective : Option Connective
  /-- Whether what comes next is negated. -/
  negated : Bool

namespace TreeReader

/-- Nothing has been read. -/
def fresh : Branch := ⟨[], none, false⟩

/-- One more rule. -/
def add (B : Branch) (r : Rule) : Branch :=
  ⟨(if B.negated then .not r else r) :: B.rules, B.connective, false⟩

/-- What has been read as one rule: without a connective there has to be a single rule. -/
def close : Branch → Option Rule
  | ⟨rules, some c, _⟩ => some (.group c rules.reverse)
  | ⟨[r], none, _⟩ => some r
  | _ => none

/-- **One symbol read.** The branches are those of the open parentheses, the innermost first. -/
def step : List Branch → Symbol → Option (List Branch)
  | B :: rest, .condition c => some (add B (.condition c) :: rest)
  | B :: rest, .not => some ({ B with negated := true } :: rest)
  | B :: rest, .opening => some (fresh :: B :: rest)
  | B :: C :: rest, .closing => (close B).map fun r => add C r :: rest
  | B :: rest, .connective c =>
    -- Two connectives without a parenthesis between them would be a group in a group.
    if B.connective = none ∨ B.connective = some c then
      some ({ B with connective := some c } :: rest)
    else none
  | _, _ => none

/-- The symbols read one after another. -/
def run (branches : List Branch) (ts : List Symbol) : Option (List Branch) :=
  ts.foldlM step branches

/-- **The rule that a line stands for**, if it is read to its end with no parenthesis open. -/
def read (ts : List Symbol) : Option Rule :=
  match run [fresh] ts with
  | some [B] => close B
  | _ => none

variable {B : Branch} {rest : List Branch} {r child : Rule} {c : Connective}

theorem run_cons (branches : List Branch) (t : Symbol) (ts : List Symbol) :
    run branches (t :: ts) = (step branches t).bind fun branches => run branches ts :=
  List.foldlM_cons

theorem run_append (branches : List Branch) (ts us : List Symbol) :
    run branches (ts ++ us) = (run branches ts).bind fun branches => run branches us :=
  List.foldlM_append

/-- Reading a rule adds it to what has been read. -/
def Yields (r : Rule) : Prop :=
  ∀ B rest, B.negated = false → run (B :: rest) r.symbols = some (add B r :: rest)

/-- Reading a rule where nothing has been read comes to the rule. -/
def Fills (r : Rule) : Prop :=
  ∀ rest, ∃ B, run (fresh :: rest) r.symbols = some (B :: rest) ∧ close B = some r

/-- What adds a rule comes to it. -/
theorem Yields.fills (h : Yields r) : Fills r := fun rest => ⟨_, h fresh rest rfl, rfl⟩

theorem yields_condition (d : Condition) : Yields (.condition d) := fun _ _ _ => rfl

/-- **What stands in parentheses** is read on its own, and then negated. -/
theorem yields_not (h : Fills child) : Yields (.not child) := by
  intro B rest hB
  have hadd : add { B with negated := true } child = add B (.not child) := by
    simp [add, hB]
  rcases child.condition_or_ne with ⟨d, rfl⟩ | hchild
  · exact congrArg (fun C => some (C :: rest)) hadd
  · rw [Rule.symbols_not hchild]
    obtain ⟨C, hrun, hclose⟩ := h ({ B with negated := true } :: rest)
    calc run (B :: rest) (.not :: .opening :: child.symbols ++ [.closing])
        = run (fresh :: { B with negated := true } :: rest) (child.symbols ++ [.closing]) := rfl
      _ = run (C :: { B with negated := true } :: rest) [.closing] := by
        rw [run_append, hrun, Option.bind_some]
      _ = some (add { B with negated := true } child :: rest) := by
        rw [run_cons, step, hclose]
        rfl
      _ = some (add B (.not child) :: rest) := by rw [hadd]

/-- A connective where it fits what has been read. -/
theorem run_connective_cons (h : B.connective = none ∨ B.connective = some c) (ts : List Symbol) :
    run (B :: rest) (.connective c :: ts) = run ({ B with connective := some c } :: rest) ts := by
  rw [run_cons, step, if_pos h, Option.bind_some]

/-- Several rules behind a connective are added one after another. -/
theorem run_intercalate {rs : List Rule} (hne : rs ≠ []) (h : ∀ r ∈ rs, Yields r)
    (hB : B.negated = false) (hc : B.connective = some c) :
    run (B :: rest) ([.connective c].intercalate (Rule.symbolsAll rs)) =
      some (⟨rs.reverse ++ B.rules, some c, false⟩ :: rest) := by
  induction rs generalizing B with
  | nil => exact absurd rfl hne
  | cons r rs ih =>
    obtain ⟨hr, hrs⟩ := List.forall_mem_cons.1 h
    have hadd : add B r = ⟨r :: B.rules, some c, false⟩ := by simp [add, hB, hc]
    cases rs with
    | nil =>
      rw [Rule.symbolsAll, Rule.symbolsAll, List.intercalate_singleton, hr B rest hB, hadd]
      rfl
    | cons r' rs =>
      rw [Rule.symbolsAll, Rule.symbolsAll, List.intercalate_cons_cons, List.append_assoc,
        run_append, hr B rest hB, Option.bind_some, List.singleton_append, hadd,
        run_connective_cons (Or.inr rfl)]
      have hmore := @ih ⟨r :: B.rules, some c, false⟩ (List.cons_ne_nil r' rs) hrs rfl rfl
      rw [Rule.symbolsAll] at hmore
      rw [hmore]
      simp

/-- **A group** comes to itself if its children are added one after another. -/
theorem fills_group {children : List Rule} (hbranches : Rule.Branches (.group c children))
    (h : ∀ r ∈ children, Yields r) : Fills (.group c children) := by
  intro rest
  obtain ⟨r, r', rs, rfl⟩ : ∃ r r' rs, children = r :: r' :: rs := by
    rcases children with _ | ⟨r, _ | ⟨r', rs⟩⟩
    · exact absurd hbranches (Nat.not_succ_le_zero 1)
    · exact absurd hbranches (Nat.not_succ_le_self 1)
    · exact ⟨r, r', rs, rfl⟩
  obtain ⟨hr, hrs⟩ := List.forall_mem_cons.1 h
  refine ⟨⟨(r' :: rs).reverse ++ [r], some c, false⟩, ?_, by simp [close]⟩
  have hmore := @run_intercalate ⟨[r], some c, false⟩ rest c _ (List.cons_ne_nil r' rs) hrs rfl rfl
  rw [Rule.symbolsAll] at hmore
  rw [Rule.symbols, Rule.symbolsAll, Rule.symbolsAll, List.intercalate_cons_cons,
    List.append_assoc, run_append, hr fresh rest rfl, Option.bind_some, List.singleton_append,
    run_connective_cons (Or.inl rfl)]
  exact hmore

end TreeReader

/-! ### Flat rules -/

namespace Rule

open TreeReader

variable {catalog : Catalog} {r s : Rule}

/-- A node without a group directly under it, if it is a group. -/
def Unnested : Rule → Prop
  | .group _ children => ∀ r ∈ children, ∀ d, r.kind ≠ .group d
  | _ => True

/-- **The flat rules.** -/
def Flat (r : Rule) : Prop := ∀ n ∈ r.nodes, n.Unnested

mutual

/-- **What reading a flat rule does**, by the kind of its node at the top. -/
theorem fills_and_yields : ∀ r : Rule, r.Flat → r.Branched →
    Fills r ∧ ((∀ d, r.kind ≠ .group d) → Yields r)
  | .group c children, hflat, hbranched => by
    obtain ⟨hnode, hbelow⟩ := List.forall_mem_cons.1 hflat
    obtain ⟨hbranches, hbranchedBelow⟩ := List.forall_mem_cons.1 hbranched
    have hchildren := fills_and_yields_of_mem children hbelow hbranchedBelow
    exact ⟨fills_group hbranches fun r hr => (hchildren r hr).2 (hnode r hr),
      fun hkind => absurd rfl (hkind c)⟩
  | .not child, hflat, hbranched => by
    have hchild := fills_and_yields child (List.forall_mem_cons.1 hflat).2
      (List.forall_mem_cons.1 hbranched).2
    have hyields : Yields (.not child) := yields_not hchild.1
    exact ⟨hyields.fills, fun _ => hyields⟩
  | .condition c, _, _ => ⟨(yields_condition c).fills, fun _ => yields_condition c⟩

theorem fills_and_yields_of_mem : ∀ rs : List Rule, (∀ n ∈ nodesAll rs, n.Unnested) →
    (∀ n ∈ nodesAll rs, n.Branches) → ∀ r ∈ rs,
    Fills r ∧ ((∀ d, r.kind ≠ .group d) → Yields r)
  | [], _, _ => nofun
  | r :: rs, hflat, hbranched => by
    obtain ⟨hr, hrs⟩ := List.forall_mem_append.1 hflat
    obtain ⟨hr', hrs'⟩ := List.forall_mem_append.1 hbranched
    exact List.forall_mem_cons.2 ⟨fills_and_yields r hr hr', fills_and_yields_of_mem rs hrs hrs'⟩

end

/-- **Flat rules are read back** from their lines. -/
theorem read_symbols_of_flat (hflat : r.Flat) (hbranched : r.Branched) :
    TreeReader.read r.symbols = some r := by
  obtain ⟨B, hrun, hclose⟩ := (fills_and_yields r hflat hbranched).1 []
  rw [TreeReader.read, hrun, ← hclose]

/-- **Flat rules with the same words are the same**, if their conditions are readable. -/
theorem eq_of_describe_eq_of_flat (hr : r.check catalog = .ok ()) (hs : s.check catalog = .ok ())
    (hr' : r.Readable) (hs' : s.Readable) (hrflat : r.Flat) (hsflat : s.Flat)
    (h : r.describe = s.describe) : r = s := by
  have hread := read_symbols_of_flat hrflat (.of_check hr)
  rw [symbols_eq_of_describe_eq hr hs hr' hs' h,
    read_symbols_of_flat hsflat (.of_check hs)] at hread
  exact (Option.some.inj hread).symm

/-! ### Payment transactions -/

/-- The rules without a quotation mark in their texts. -/
def Unquoted (r : Rule) : Prop := ∀ c, .condition c ∈ r.nodes → ∀ s ∈ c.values, s.Unquoted

/-- The keys of the fields of payment transactions are told from other words. -/
theorem keys_builtin : ∀ f ∈ Catalog.builtin.fields,
    ' ' ∉ f.key.toList ∧ f.key.toList.head? ≠ some '(' ∧ f.key ≠ "NOT" := by
  decide +kernel

/-- Rules on payment transactions are readable if there are no quotation marks in their texts. -/
theorem Unquoted.readable (h : r.Unquoted) (hr : r.check .builtin = .ok ()) : r.Readable := by
  intro c hc
  have hsound := (wellFormed_iff_nodes r).1 (check_eq_ok_iff.1 hr) _ hc
  obtain ⟨f, hf, hkey, -⟩ := Condition.WellFormed.typed hsound
  obtain ⟨hblank, hopening, hnegation⟩ := keys_builtin f hf
  rw [hkey] at hblank hopening hnegation
  exact ⟨hblank, hopening, hnegation, h c hc⟩

/-- **Sentences of flat rules stand for one rule each.** Take two rules on payment transactions
without groups directly under groups and without quotation marks in their texts. They have the same
sentence, with the same decision, only if they are the same. -/
theorem sentence_eq_iff_of_flat (hr : r.check .builtin = .ok ()) (hs : s.check .builtin = .ok ())
    (hrflat : r.Flat) (hsflat : s.Flat) (hr' : r.Unquoted) (hs' : s.Unquoted) (d : Decision) :
    r.sentence d = s.sentence d ↔ r = s := by
  constructor
  · intro h
    exact eq_of_describe_eq_of_flat hr hs (hr'.readable hr) (hs'.readable hs) hrflat hsflat
      (sentence_eq_iff.1 h)
  · rintro rfl
    rfl

/-- The condition that the merchant category is a text. -/
def category (s : String) : Rule := .condition ⟨.eq, "txn.mcc", some (.scalar (.text s))⟩

/-- Merchant categories that look like words of a sentence, one of them negated. -/
def wordsAsCategories : Rule :=
  .group .all [category "NOT", .not (category "AND"), .not (.group .any [category "OR",
    .not (.not (category "IS NULL"))])]

/-- The same with another one negated. -/
def wordsNegated : Rule :=
  .group .all [.not (category "NOT"), category "AND", .not (.group .any [category "OR",
    .not (.not (category "IS NULL"))])]

theorem sentence_ne_of_wordsNegated :
    wordsAsCategories.check .builtin = .ok () ∧ wordsNegated.check .builtin = .ok () ∧
      wordsAsCategories.Flat ∧ wordsNegated.Flat ∧
      wordsAsCategories.Unquoted ∧ wordsNegated.Unquoted ∧
      wordsAsCategories.sentence ⟨"block"⟩ ≠ wordsNegated.sentence ⟨"block"⟩ := by
  have hcheck : wordsAsCategories.check .builtin = .ok () := by decide +kernel
  have hcheck' : wordsNegated.check .builtin = .ok () := by decide +kernel
  have hflat : wordsAsCategories.Flat := by
    simp [Flat, wordsAsCategories, category, nodes, nodesAll, Unnested, kind]
  have hflat' : wordsNegated.Flat := by
    simp [Flat, wordsNegated, category, nodes, nodesAll, Unnested, kind]
  have hunquoted : wordsAsCategories.Unquoted := by
    simp [Unquoted, wordsAsCategories, category, nodes, nodesAll, Condition.values, Operand.items,
      Scalar.Unquoted]
  have hunquoted' : wordsNegated.Unquoted := by
    simp [Unquoted, wordsNegated, category, nodes, nodesAll, Condition.values, Operand.items,
      Scalar.Unquoted]
  refine ⟨hcheck, hcheck', hflat, hflat', hunquoted, hunquoted', fun h => ?_⟩
  have heq := (sentence_eq_iff_of_flat hcheck hcheck' hflat hflat' hunquoted hunquoted' _).1 h
  exact absurd heq (by simp [wordsAsCategories, wordsNegated, category])

end Rule

end Rulebook
