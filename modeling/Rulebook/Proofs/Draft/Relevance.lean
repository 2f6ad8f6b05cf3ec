import Rulebook.Proofs.Draft.Agreement
import Rulebook.Proofs.Rule.WellFormed

/-!
# What a verdict depends on

A rule is checked against a whole catalog, but it only speaks of some fields, and of these the check
only looks at the types. So two catalogs that have the same types for the fields a rule names, or
have no such field, both of them, come to the same verdict on the rule: they accept it, or they find
the same fault first. Everything that goes through the check inherits this, above all the preparation
of drafts.

What follows is that a catalog can grow. New fields, and new labels for fields it has, change no
verdict on a rule that was accepted: such a rule names fields of the catalog only, and these keep
their types.

* `Rulebook.Rule.Names` – the **keys that a rule names**;
* `Rulebook.Catalog.AgreesOn` – catalogs with the same types for these;
* `Rulebook.Catalog.KeepsTypes` – fields that a catalog can be extended by without a change of the
  types that it has;
* `Rulebook.Draft.prepare_eq_of_agreesOn` – **the same verdict**.
-/

namespace Rulebook

/-! ### The fields that a rule names -/

/-- **A rule names a key** if one of its conditions does. -/
def Rule.Names (r : Rule) (key : String) : Prop :=
  ∃ c, .condition c ∈ r.nodes ∧ c.fieldKey = key

namespace Catalog

/-- The type of the field with a key, if there is one. -/
def type? (catalog : Catalog) (key : String) : Option FieldType := (catalog.get? key).map Field.type

/-- **Catalogs agree on a rule** if for each key that it names both have a field of the same type, or
neither has one. -/
def AgreesOn (c d : Catalog) (r : Rule) : Prop := ∀ key, r.Names key → c.type? key = d.type? key

/-- **Fields that keep the types of a catalog**: each is new to it, or has the type of the field with
its key. -/
def KeepsTypes (c : Catalog) (fields : List Field) : Prop :=
  ∀ f ∈ fields, ∀ g, c.get? f.key = some g → f.type = g.type

variable {c d : Catalog} {key : String} {fields : List Field}

/-- What a catalog has keeps its type if it is extended by such fields. -/
theorem KeepsTypes.type?_extend (h : c.KeepsTypes fields) {g : Field} (hg : c.get? key = some g) :
    (c.extend fields).type? key = c.type? key := by
  rw [type?, get?_extend, type?, hg]
  rcases hlast : Keyed.last? Field.key key fields with _ | f
  · rfl
  · obtain ⟨hf, rfl⟩ := Keyed.key_of_last?_eq_some hlast
    change some f.type = some g.type
    rw [h f hf g hg]

end Catalog

/-! ### The same verdict -/

section Verdicts

variable {c d : Catalog} {r : Rule} {rs : List Rule}

/-- **The check of a condition** looks at the type of its field. -/
theorem Condition.check_congr {cond : Condition}
    (h : c.type? cond.fieldKey = d.type? cond.fieldKey) : cond.check c = cond.check d := by
  by_cases hnamed : cond.fieldKey = ""
  · rw [check_eq_of_unnamed hnamed, check_eq_of_unnamed hnamed]
  unfold Catalog.type? at h
  rcases hc : c.get? cond.fieldKey with _ | f <;> rcases hd : d.get? cond.fieldKey with _ | g <;>
    rw [hc, hd] at h
  · rw [check_eq_of_get?_none hnamed hc, check_eq_of_get?_none hnamed hd]
  · cases h
  · cases h
  · rw [check_eq_of_get? hnamed hc, check_eq_of_get? hnamed hd, (Option.some.inj h : f.type = g.type)]

namespace Rule

theorem checkNode_congr
    (h : ∀ cond, r = .condition cond → c.type? cond.fieldKey = d.type? cond.fieldKey) :
    r.checkNode c = r.checkNode d := by
  cases r with
  | condition cond => exact Condition.check_congr (h cond rfl)
  | _ => rfl

theorem forM_checkNode_congr (h : ∀ n ∈ rs, n.checkNode c = n.checkNode d) :
    forM rs (checkNode c) = forM rs (checkNode d) := by
  induction rs with
  | nil => rfl
  | cons r rs ih =>
    obtain ⟨hr, hrs⟩ := List.forall_mem_cons.1 h
    rw [List.forM_cons, List.forM_cons, hr, ih hrs]

/-- **The check of a rule** looks at the types of the fields that it names. -/
theorem check_congr (h : c.AgreesOn d r) : r.check c = r.check d := by
  rw [check_eq_forM, check_eq_forM]
  refine forM_checkNode_congr fun n hn => checkNode_congr ?_
  rintro cond rfl
  exact h _ ⟨cond, hn, rfl⟩

/-- A rule that a catalog accepts names fields of the catalog only. -/
theorem exists_get?_of_names (hcheck : r.check c = .ok ()) {key : String} (hkey : r.Names key) :
    ∃ f, c.get? key = some f := by
  obtain ⟨cond, hmem, rfl⟩ := hkey
  have hsound : cond.WellFormed c :=
    (wellFormed_iff_nodes r).1 (check_eq_ok_iff.1 hcheck) _ hmem
  obtain ⟨f, hf, hname, -⟩ := hsound.typed
  exact ⟨f, Catalog.get?_eq_some_iff.2 ⟨hf, hname⟩⟩

/-- **A rule that is accepted stays accepted** when the catalog grows. -/
theorem agreesOn_extend {fields : List Field} (hcheck : r.check c = .ok ())
    (hfields : c.KeepsTypes fields) : (c.extend fields).AgreesOn c r := by
  intro key hkey
  obtain ⟨f, hf⟩ := exists_get?_of_names hcheck hkey
  exact hfields.type?_extend hf

end Rule

end Verdicts

/-! ### Drafts -/

namespace Draft

variable {c d : Catalog} {draft : Draft}

theorem prepare_congr
    (h : ∀ r, Rule.decode (.ofJson draft.logic.json) = .ok r → c.AgreesOn d r) :
    draft.prepare c = draft.prepare d := by
  rcases hdecode : Rule.decode (.ofJson draft.logic.json) with e | r
  · rw [prepare, prepare, hdecode]
    rfl
  · rw [prepare_eq c hdecode, prepare_eq d hdecode, Rule.check_congr (h r hdecode)]

/-- **A verdict depends on the types of the fields that a rule names**, and on nothing else in a
catalog.

* Catalogs that agree on a rule come to the same verdict on it, down to the error.
* They prepare the same version of a draft with the rule, or tell the same error.
* If a catalog is extended by fields that keep its types, what it has accepted stays accepted: rules
  are, and drafts are prepared to the same versions. -/
theorem prepare_eq_of_agreesOn (c : Catalog) :
    (∀ d (r : Rule), c.AgreesOn d r → r.check c = r.check d) ∧
      (∀ d (draft : Draft), (∀ r, Rule.decode (.ofJson draft.logic.json) = .ok r →
        c.AgreesOn d r) → draft.prepare c = draft.prepare d) ∧
      ∀ fields, c.KeepsTypes fields →
        (∀ r : Rule, r.check c = .ok () → r.check (c.extend fields) = .ok ()) ∧
        ∀ (draft : Draft) p, draft.prepare c = .ok p →
          draft.prepare (c.extend fields) = .ok p := by
  refine ⟨fun d r => Rule.check_congr, fun d draft => prepare_congr, fun fields hfields => ⟨?_, ?_⟩⟩
  · intro r hcheck
    rw [Rule.check_congr (Rule.agreesOn_extend hcheck hfields), hcheck]
  · intro draft p hp
    obtain ⟨r, action, hdecode, hcheck, -⟩ := prepare_eq_ok_iff.1 hp
    have hagrees : ∀ r', Rule.decode (.ofJson draft.logic.json) = .ok r' →
        (c.extend fields).AgreesOn c r' := by
      intro r' hr'
      obtain rfl := Except.ok.inj (hdecode.symm.trans hr')
      exact Rule.agreesOn_extend hcheck hfields
    rw [prepare_congr hagrees, hp]

/-- A condition on the amount. -/
def largeAmount : Rule := .condition ⟨.gt, "txn.amount", some (.scalar (.number (.ofInt 500)))⟩

/-- A draft with the condition. -/
def largeAmountDraft : Draft where
  ruleId := "r-1"
  number := 1
  logic := .ofJson
    (.array [.string "CONDITION", .string "GT", .string "txn.amount", .integer 500])
  decision := .ofJson (.object [("action", .string "block")])
  createdBy := "editor"
  changeSummary := none
  description := none
  manual := false

/-- A new field, and a new label for a field of the built-in catalog. -/
def relabelled : List Field :=
  [⟨"txn.channel", "Channel", .enum⟩, ⟨"txn.amount", "Amount in cents", .number⟩]

/-- A catalog in which the amount is a text. -/
def textAmounts : Catalog := .ofList [⟨"txn.amount", "Amount", .string⟩]

/-- A catalog with more fields in which the amount is a text. -/
def moreTextAmounts : Catalog := textAmounts.extend [⟨"txn.mcc", "Category", .enum⟩]

theorem prepare_largeAmountDraft :
    Catalog.builtin.KeepsTypes relabelled ∧
      (∃ p, largeAmountDraft.prepare .builtin = .ok p ∧
        largeAmountDraft.prepare (Catalog.builtin.extend relabelled) = .ok p) ∧
      textAmounts.AgreesOn moreTextAmounts largeAmount ∧
      largeAmount.check textAmounts = .error (.operatorNotAllowed .gt .string) ∧
      largeAmount.check moreTextAmounts = .error (.operatorNotAllowed .gt .string) ∧
      largeAmountDraft.prepare textAmounts = largeAmountDraft.prepare moreTextAmounts := by
  have hkeeps : Catalog.builtin.KeepsTypes relabelled := by
    simp only [Catalog.KeepsTypes, relabelled, List.forall_mem_cons]
    refine ⟨?_, ?_, nofun⟩
    · rintro g ⟨⟩
    · rintro g ⟨⟩
      rfl
  have hagrees : textAmounts.AgreesOn moreTextAmounts largeAmount := by
    rintro key ⟨cond, hmem, rfl⟩
    obtain rfl : cond = _ := Rule.condition.inj (List.mem_singleton.1 hmem)
    rfl
  have hdecode : Rule.decode (.ofJson largeAmountDraft.logic.json) = .ok largeAmount := rfl
  have hprepare : largeAmountDraft.prepare .builtin =
      .ok (largeAmountDraft.prepared largeAmount "block") :=
    prepare_eq_ok_iff.2 ⟨_, _, hdecode, by decide +kernel, rfl, rfl⟩
  have hcheck : largeAmount.check textAmounts = .error (.operatorNotAllowed .gt .string) := by
    decide +kernel
  obtain ⟨-, -, hgrown⟩ := prepare_eq_of_agreesOn .builtin
  obtain ⟨hsame, hsameDraft, -⟩ := prepare_eq_of_agreesOn textAmounts
  refine ⟨hkeeps, ⟨_, hprepare, (hgrown _ hkeeps).2 _ _ hprepare⟩, hagrees, hcheck,
    (hsame _ _ hagrees).symm.trans hcheck, hsameDraft _ _ fun r hr => ?_⟩
  obtain rfl := Except.ok.inj (hdecode.symm.trans hr)
  exact hagrees

end Draft

end Rulebook
