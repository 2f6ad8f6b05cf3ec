import Rulebook.Proofs.Draft.Agreement

/-!
# What an author's description can do

A draft may come with a description by its author. Preparing a draft has two halves: a **verdict**,
which looks at the tree and at the decision and gives the rule with its action, and the writing of
the record. The description only has a part in the second half. So drafts that differ in what is
said of a description have the same verdict: an author cannot get a draft accepted, or another error
told, by a description. In the record, too, nothing else depends on it.

* `Rulebook.Draft.Redescribed` – drafts that **differ in the description at most**, and
  `Rulebook.PreparedVersion.Redescribed`, versions that do;
* `Rulebook.Draft.Authored` – when the description by the author **counts**;
* `Rulebook.Draft.verdict` – the **verdict** on a draft, and `Rulebook.Draft.prepare_eq_map_verdict`,
  that the rest of preparing cannot fail;
* `Rulebook.Draft.redescribed_prepare` – **what a description can do**.
-/

namespace Rulebook

/-! ### Descriptions apart -/

/-- **Drafts that differ in the description at most**: in its text, and in whether it is wanted. -/
def Draft.Redescribed (d d' : Draft) : Prop :=
  d' = { d with description := d'.description, manual := d'.manual }

/-- Versions that differ in the description at most, and in where it comes from. -/
def PreparedVersion.Redescribed (p p' : PreparedVersion) : Prop :=
  p' = { p with description := p'.description, source := p'.source }

namespace Draft

variable {catalog : Catalog} {d d' : Draft} {p : PreparedVersion} {text : String}

/-- **The description by the author counts** if it is wanted, and there is one that is not empty. -/
def Authored (d : Draft) (text : String) : Prop :=
  d.manual = true ∧ d.description = some text ∧ text ≠ ""

theorem manual?_eq_some_iff : d.manual? = some text ↔ d.Authored text := by
  rw [manual?, Option.filter_eq_some_iff, Authored, Bool.and_eq_true_iff, and_left_comm, ne_eq,
    ← String.isEmpty_iff, Bool.not_eq_true', Bool.not_eq_true]

theorem settle_of_authored (h : d.Authored text) (r : Rule) (action : String) :
    d.settle r action = (text, .manual) := by
  rw [settle, manual?_eq_some_iff.2 h]

theorem settle_of_not_authored (h : ¬∃ text, d.Authored text) (r : Rule) (action : String) :
    d.settle r action = (r.sentence ⟨action⟩, .template) := by
  have hnone : d.manual? = none :=
    Option.eq_none_iff_forall_ne_some.2 fun text ht => h ⟨text, manual?_eq_some_iff.1 ht⟩
  rw [settle, hnone]

/-- The author's text is the description that comes from the author. -/
theorem settle_eq_manual_iff (r : Rule) (action : String) :
    d.settle r action = (text, .manual) ↔ d.Authored text := by
  constructor
  · intro h
    by_cases hauthored : ∃ text, d.Authored text
    · obtain ⟨text', ht⟩ := hauthored
      rw [settle_of_authored ht] at h
      obtain rfl : text' = text := congrArg Prod.fst h
      exact ht
    · rw [settle_of_not_authored hauthored] at h
      cases h
  · exact fun h => settle_of_authored h r action

theorem action?_eq_some_iff {action : String} : d.action? = some action ↔
    d.decision.json.member? "action" = some (.string action) ∧ action ≠ "" := by
  unfold action?
  split
  · next s hs =>
    split
    · next hempty =>
      have hs' : s = "" := String.isEmpty_iff.1 hempty
      grind
    · next hne =>
      have hs' : s ≠ "" := fun h => hne (String.isEmpty_iff.2 h)
      grind
  · next hother =>
    constructor
    · nofun
    · exact fun h => absurd h.1 (hother action)

/-! ### The verdict -/

/-- **The verdict on a draft**: its rule and its action, or what is wrong. -/
def verdict (catalog : Catalog) (d : Draft) : Except RuleError (Rule × String) := do
  let rule ← (Rule.decode (.ofJson d.logic.json)).mapError .malformed
  rule.check catalog
  let some action := d.action? | throw .missingAction
  return (rule, action)

/-- **Preparing is the verdict and a record**, and the writing of the record cannot fail. -/
theorem prepare_eq_map_verdict (catalog : Catalog) (d : Draft) :
    d.prepare catalog = (d.verdict catalog).map fun accepted =>
      d.prepared accepted.1 accepted.2 := by
  unfold prepare verdict
  rcases Rule.decode (.ofJson d.logic.json) with e | r
  · rfl
  · change (r.check catalog >>= fun _ => _) = Except.map _ (r.check catalog >>= fun _ => _)
    rcases r.check catalog with e | u
    · rfl
    · rcases d.action? with - | action <;> rfl

/-- The verdict does not look at the description. -/
theorem Redescribed.verdict_eq (h : d.Redescribed d') (catalog : Catalog) :
    d'.verdict catalog = d.verdict catalog := by
  rw [h]
  rfl

theorem Redescribed.prepared (h : d.Redescribed d') (r : Rule) (action : String) :
    (d.prepared r action).Redescribed (d'.prepared r action) := by
  rw [h]
  rfl

/-! ### Two drafts -/

/-- **Drafts that differ in the description at most** fail with the same error, or become versions
that differ in the description at most. -/
theorem Redescribed.prepare (h : d.Redescribed d') (catalog : Catalog) :
    (∃ e, d.prepare catalog = .error e ∧ d'.prepare catalog = .error e) ∨
      ∃ p p', d.prepare catalog = .ok p ∧ d'.prepare catalog = .ok p' ∧ p.Redescribed p' := by
  rw [prepare_eq_map_verdict, prepare_eq_map_verdict, h.verdict_eq]
  rcases d.verdict catalog with e | ⟨r, action⟩
  · exact .inl ⟨e, rfl, rfl⟩
  · exact .inr ⟨_, _, rfl, rfl, h.prepared r action⟩

/-- **A description by the author does not help a draft to be accepted**, and changes nothing but
the description.

* Drafts that differ in the description at most fail with the same error, or become versions that
  differ in the description at most.
* A version has the rule that the tree of its draft describes. Its description is a text by the
  author exactly if the author has given the text, it is not empty, and it is wanted.
* Otherwise its description is the sentence for its rule and the action of the decision. -/
theorem redescribed_prepare (catalog : Catalog) :
    (∀ d d' : Draft, d.Redescribed d' →
      (∃ e, d.prepare catalog = .error e ∧ d'.prepare catalog = .error e) ∨
        ∃ p p', d.prepare catalog = .ok p ∧ d'.prepare catalog = .ok p' ∧ p.Redescribed p') ∧
      ∀ (d : Draft) p, d.prepare catalog = .ok p →
        Rule.decode (.ofJson d.logic.json) = .ok p.logic ∧
        (∀ text, p.description = text ∧ p.source = .manual ↔ d.Authored text) ∧
        ((¬∃ text, d.Authored text) → ∃ action,
          d.decision.json.member? "action" = some (.string action) ∧
            p.description = p.logic.sentence ⟨action⟩ ∧ p.source = .template) := by
  refine ⟨fun d d' h => h.prepare catalog, fun d p hp => ?_⟩
  obtain ⟨r, action, hdecode, -, haction, rfl⟩ := prepare_eq_ok_iff.1 hp
  refine ⟨hdecode, fun text => ?_, fun hauthored => ?_⟩
  · rw [← settle_eq_manual_iff r action, Prod.ext_iff]
    rfl
  · have hsettle := settle_of_not_authored hauthored r action
    exact ⟨action, (action?_eq_some_iff.1 haction).1, congrArg Prod.fst hsettle,
      congrArg Prod.snd hsettle⟩

/-- A condition on the amount. -/
def largePurchase : Rule := .condition ⟨.gte, "txn.amount", some (.scalar (.number (.ofInt 500)))⟩

/-- A draft of it with a description by its author, whose decision has one member. -/
def largePurchases (member : String) (manual : Bool) : Draft where
  ruleId := "r-1"
  number := 1
  logic := .ofJson
    (.array [.string "CONDITION", .string "GTE", .string "txn.amount", .integer 500])
  decision := .ofJson (.object [(member, .string "review")])
  createdBy := "editor"
  changeSummary := none
  description := some "Large purchases"
  manual := manual

theorem prepare_largePurchases :
    (∃ p p', (largePurchases "action" true).prepare .builtin = .ok p ∧
        (largePurchases "action" false).prepare .builtin = .ok p' ∧ p.Redescribed p' ∧
        p.description = "Large purchases" ∧ p.source = .manual ∧
        p'.description = p'.logic.sentence ⟨"review"⟩ ∧ p'.source = .template) ∧
      (largePurchases "queue" true).prepare .builtin = .error .missingAction ∧
      (largePurchases "queue" false).prepare .builtin = .error .missingAction := by
  obtain ⟨hpair, hone⟩ := redescribed_prepare .builtin
  have hcheck : largePurchase.check .builtin = .ok () := by decide +kernel
  have hprepare : ∀ manual, (largePurchases "action" manual).prepare .builtin =
      .ok ((largePurchases "action" manual).prepared largePurchase "review") :=
    fun manual => prepare_eq_ok_iff.2 ⟨_, _, rfl, hcheck, rfl, rfl⟩
  have hmissing : (largePurchases "queue" true).prepare .builtin = .error .missingAction := by
    rw [prepare_eq .builtin (r := largePurchase) rfl, hcheck]
    rfl
  refine ⟨?_, hmissing, ?_⟩
  · obtain ⟨e, he, -⟩ | ⟨p, p', hp, hp', hsame⟩ :=
      hpair (largePurchases "action" true) (largePurchases "action" false) rfl
    · rw [hprepare] at he
      cases he
    · obtain ⟨-, hwritten, -⟩ := hone _ p hp
      obtain ⟨-, -, hmade⟩ := hone _ p' hp'
      have hunwanted : ¬∃ text, (largePurchases "action" false).Authored text :=
        fun ⟨_, hmanual, _⟩ => Bool.false_ne_true hmanual
      obtain ⟨hdescription, hsource⟩ :=
        (hwritten "Large purchases").2 ⟨rfl, rfl, by decide⟩
      obtain ⟨action, haction, hsentence, hsource'⟩ := hmade hunwanted
      obtain rfl : "review" = action := Json.string.inj (Option.some.inj haction)
      exact ⟨p, p', hp, hp', hsame, hdescription, hsource, hsentence, hsource'⟩
  · obtain ⟨e, he, he'⟩ | ⟨p, p', hp, -⟩ :=
      hpair (largePurchases "queue" true) (largePurchases "queue" false) rfl
    · rw [he', ← he, hmissing]
    · rw [hmissing] at hp
      cases hp

end Draft

end Rulebook
