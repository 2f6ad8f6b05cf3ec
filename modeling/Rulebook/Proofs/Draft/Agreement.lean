import Mathlib
import Rulebook.Command.Run
import Rulebook.Draft
import Rulebook.Proofs.Rule.OrderFree

/-!
# Rules from a text and rules from a draft

A rule comes in on two ways: it is loaded from a text of its own, or it is prepared as the tree of a
draft. In a draft it has been kept as a value before it is decoded, with its members in another
order, so that the two ways agree rests on `Rulebook.Rule.orderFree_decode`; from there on both ways
look at the rule only.

* `Rulebook.Rule.load_eq_ok_iff`, `Rulebook.Draft.prepare_eq_ok_iff` – when a rule is loaded, and a
  draft prepared;
* `Rulebook.Draft.decode_logic_eq_ok_iff` – **the rule of a text and of a draft that keeps its
  value**;
* `Rulebook.Draft.load_iff_prepare` – the two ways agree on what is accepted, on the rule and its
  description, and on what is wrong with a rule.
-/

namespace Rulebook

/-! ### Loading -/

namespace Rule

variable {catalog : Catalog} {text : String} {r : Rule} {e : RuleError}

theorem parse_eq_ok_iff {d : Document} (htext : Document.read text = ⟨d, true⟩) :
    parse text = .ok r ↔ decode d = .ok r := by
  have hread : Decode.ofText decode text = decode d := by
    simp only [Decode.ofText, htext]
    cases decode d <;> rfl
  rw [parse, mapError_eq_ok_iff, hread]

theorem load_eq_ok_iff :
    load catalog text = .ok r ↔ parse text = .ok r ∧ r.check catalog = .ok () := by
  rw [load, bind_eq_ok_iff]
  constructor
  · rintro ⟨r', hparse, hrun⟩
    obtain ⟨u, hcheck, hr⟩ := bind_eq_ok_iff.1 hrun
    obtain rfl := Except.ok.inj hr
    exact ⟨hparse, hcheck⟩
  · rintro ⟨hparse, hcheck⟩
    exact ⟨r, hparse, bind_eq_ok_iff.2 ⟨(), hcheck, rfl⟩⟩

/-- A rule with a fault is not loaded, and the fault is told. -/
theorem load_eq_error (hparse : parse text = .ok r) (hcheck : r.check catalog = .error e) :
    load catalog text = .error e := by
  rw [load, hparse]
  change (r.check catalog >>= fun _ => Except.ok r) = .error e
  rw [hcheck]
  rfl

end Rule

namespace Draft

variable {catalog : Catalog} {d : Draft} {p : PreparedVersion} {r : Rule} {e : RuleError}

/-! ### Preparing -/

/-- The version that becomes of a draft with a rule and an action. -/
def prepared (d : Draft) (rule : Rule) (action : String) : PreparedVersion where
  ruleId := d.ruleId
  number := d.number
  status := .draft
  logic := rule
  decision := d.decision
  changeSummary := d.changeSummary
  createdBy := d.createdBy
  description := (d.settle rule action).1
  source := (d.settle rule action).2

theorem prepare_eq (catalog : Catalog) (hdecode : Rule.decode (.ofJson d.logic.json) = .ok r) :
    d.prepare catalog = r.check catalog >>= fun _ =>
      match d.action? with
      | some action => .ok (d.prepared r action)
      | none => .error .missingAction := by
  rw [prepare, hdecode]
  change (r.check catalog >>= fun _ => _) = _
  cases r.check catalog with
  | error e => rfl
  | ok u => cases d.action? <;> rfl

/-- **When a draft is prepared**: its tree describes a rule that goes with the catalog, and its
decision has an action. -/
theorem prepare_eq_ok_iff :
    d.prepare catalog = .ok p ↔ ∃ r action, Rule.decode (.ofJson d.logic.json) = .ok r ∧
      r.check catalog = .ok () ∧ d.action? = some action ∧ d.prepared r action = p := by
  cases hdecode : Rule.decode (.ofJson d.logic.json) with
  | error e => simp [prepare, hdecode, Except.mapError, bind, Except.bind]
  | ok r =>
    rw [prepare_eq catalog hdecode, bind_eq_ok_iff]
    constructor
    · rintro ⟨u, hcheck, hp⟩
      cases haction : d.action? with
      | none => simp [haction] at hp
      | some action =>
        rw [haction] at hp
        exact ⟨r, action, rfl, hcheck, rfl, Except.ok.inj hp⟩
    · rintro ⟨r', action, hr, hcheck, haction, rfl⟩
      obtain rfl := Except.ok.inj hr
      exact ⟨(), hcheck, by rw [haction]⟩

/-- A draft whose rule has a fault is not prepared, and the fault is told. -/
theorem prepare_eq_error (hdecode : Rule.decode (.ofJson d.logic.json) = .ok r)
    (hcheck : r.check catalog = .error e) : d.prepare catalog = .error e := by
  rw [prepare_eq catalog hdecode, hcheck]
  rfl

/-- The action of a decision with nothing else in it. -/
theorem action?_of_decision {a : String} (ha : a.isEmpty = false)
    (hdecision : d.decision = .ofJson (.object [("action", .string a)])) : d.action? = some a := by
  rw [action?, hdecision]
  change (if a.isEmpty then none else some a) = some a
  rw [if_neg (by simp [ha])]

/-! ### Agreement -/

/-- **The rule of a value and of a draft that keeps the value.** -/
theorem decode_logic_eq_ok_iff {j : Json} (hj : j.Distinct) (hlogic : d.logic = .ofJson j) :
    Rule.decode (.ofJson d.logic.json) = .ok r ↔ Rule.decode (.ofJson j) = .ok r := by
  rw [hlogic]
  exact Rule.orderFree_decode.decode_eq_ok_iff hj.alike_canonical.symm r

/-- What is not blank is not empty. -/
theorem isEmpty_of_trim {a : String} (h : (Text.trim a).isEmpty = false) : a.isEmpty = false := by
  rw [Bool.eq_false_iff] at h ⊢
  intro hempty
  obtain rfl : a = "" := String.isEmpty_iff.1 hempty
  exact h rfl

/-- The description of a draft that leaves it to be made is the sentence for its rule. -/
theorem description_prepared (hmanual : d.manual = false) (r : Rule) (action : String) :
    (d.prepared r action).description = r.sentence ⟨action⟩ := by
  have hnone : d.manual? = none := by
    rw [manual?, hmanual]
    cases d.description <;> simp
  change (d.settle r action).1 = _
  rw [settle, hnone]

/-- What the command makes of the text of a rule. -/
theorem describeOutput_of_load {text a : String} (hload : Rule.load catalog text = .ok r)
    (ha : (Text.trim a).isEmpty = false) (report : Report) :
    Command.describeOutput report catalog (.ok text) a =
      .ok (report.description (r.sentence ⟨a⟩)) := by
  rw [Command.describeOutput, if_neg (by simp [ha])]
  change ((Rule.load catalog text).mapError _ >>= fun _ => _) = _
  rw [hload]
  rfl

/-- **What the command prints** for the text of a rule: its sentence, or a record with it. -/
theorem print_describe_of_load {text a : String} (hload : Rule.load catalog text = .ok r)
    (ha : (Text.trim a).isEmpty = false) (coloured : Bool) (file : String) :
    Command.print .sure ⟨.table, coloured⟩ catalog (.ok text) (.describe file a) =
        ⟨.ok (), r.sentence ⟨a⟩ ++ "\n"⟩ ∧
      Command.print .sure ⟨.json, coloured⟩ catalog (.ok text) (.describe file a) =
        ⟨.ok (), (Json.object [("description", .string (r.sentence ⟨a⟩))]).pretty ++ "\n"⟩ := by
  have hprint (format : OutputFormat) :
      Command.print .sure ⟨format, coloured⟩ catalog (.ok text) (.describe file a) =
        .line (Report.description ⟨format, coloured⟩ (r.sentence ⟨a⟩)) := by
    rw [Command.print, describeOutput_of_load hload ha]
    exact (Printing.lift_ok_bind _ _).trans (Command.printReport_sure _ _)
  exact ⟨hprint .table, hprint .json⟩

/-- **The direct way and the way through a draft agree.** Take a text with a value in which no
object has two members of one name, and a draft that keeps the value as its tree, has a decision
that is an action and nothing else, and leaves the description to be made.

* The rule of the text is loaded exactly if the draft is prepared.
* If so, the rule is the same, the draft gets the sentence for the rule and the action, and this is
  what is printed for the text and the action: as it is, or as the only member of a record.
* If the text describes a rule with a fault, the same fault is told in both ways. -/
theorem load_iff_prepare {text : String} {j : Json}
    (htext : Document.read text = ⟨.ofJson j, true⟩) (hj : j.Distinct) {a : String}
    (ha : (Text.trim a).isEmpty = false) {d : Draft} (hlogic : d.logic = .ofJson j)
    (hdecision : d.decision = .ofJson (.object [("action", .string a)]))
    (hmanual : d.manual = false) (catalog : Catalog) :
    ((∃ r, Rule.load catalog text = .ok r) ↔ ∃ p, d.prepare catalog = .ok p) ∧
      (∀ r p, Rule.load catalog text = .ok r → d.prepare catalog = .ok p →
        p.logic = r ∧ p.description = r.sentence ⟨a⟩ ∧
        ∀ (coloured : Bool) (file : String),
          Command.print .sure ⟨.table, coloured⟩ catalog (.ok text) (.describe file a) =
              ⟨.ok (), p.description ++ "\n"⟩ ∧
            Command.print .sure ⟨.json, coloured⟩ catalog (.ok text) (.describe file a) =
              ⟨.ok (), (Json.object [("description", .string p.description)]).pretty ++ "\n"⟩) ∧
      ∀ r e, Rule.parse text = .ok r → r.check catalog = .error e →
        Rule.load catalog text = .error e ∧ d.prepare catalog = .error e := by
  have haction : d.action? = some a := action?_of_decision (isEmpty_of_trim ha) hdecision
  have hrule : ∀ r, Rule.parse text = .ok r ↔ Rule.decode (.ofJson d.logic.json) = .ok r :=
    fun r => (Rule.parse_eq_ok_iff htext).trans (decode_logic_eq_ok_iff hj hlogic).symm
  -- The draft is prepared with the rule that is loaded.
  have hprepare : ∀ p, d.prepare catalog = .ok p ↔
      ∃ r, Rule.load catalog text = .ok r ∧ d.prepared r a = p := by
    intro p
    rw [prepare_eq_ok_iff]
    constructor
    · rintro ⟨r, action, hdecode, hcheck, hsame, rfl⟩
      obtain rfl : a = action := Option.some.inj (haction.symm.trans hsame)
      exact ⟨r, Rule.load_eq_ok_iff.2 ⟨(hrule r).2 hdecode, hcheck⟩, rfl⟩
    · rintro ⟨r, hload, rfl⟩
      obtain ⟨hparse, hcheck⟩ := Rule.load_eq_ok_iff.1 hload
      exact ⟨r, a, (hrule r).1 hparse, hcheck, haction, rfl⟩
  refine ⟨?_, ?_, ?_⟩
  · constructor
    · rintro ⟨r, hload⟩
      exact ⟨_, (hprepare _).2 ⟨r, hload, rfl⟩⟩
    · rintro ⟨p, hp⟩
      obtain ⟨r, hload, -⟩ := (hprepare p).1 hp
      exact ⟨r, hload⟩
  · intro r p hload hp
    obtain ⟨r', hload', rfl⟩ := (hprepare p).1 hp
    obtain rfl : r = r' := Except.ok.inj (hload.symm.trans hload')
    have hdescription : (d.prepared r a).description = r.sentence ⟨a⟩ :=
      description_prepared hmanual r a
    rw [hdescription]
    exact ⟨rfl, rfl, print_describe_of_load hload ha⟩
  · intro r e hparse hcheck
    exact ⟨Rule.load_eq_error hparse hcheck, prepare_eq_error ((hrule r).1 hparse) hcheck⟩

/-- The value of a rule with a node that is written as a list, and with a member that the node does
not know. -/
def listedJson : Json :=
  .object [("note", .integer 1), ("nodeType", .string "NOT"),
    ("child", .array [.string "CONDITION", .string "IS_NULL", .string "txn.country"])]

/-- A text of the value. -/
def listedText : String :=
  "\x7b\"note\": 1, \"nodeType\": \"NOT\", " ++
    "\"child\": [\"CONDITION\", \"IS_NULL\", \"txn.country\"]\x7d"

/-- A draft with the value. -/
def listed : Draft where
  ruleId := "r-1"
  number := 1
  logic := .ofJson listedJson
  decision := .ofJson (.object [("action", .string "block")])
  createdBy := "editor"
  changeSummary := none
  description := some "Not used."
  manual := false

theorem load_and_prepare_listed :
    Document.read listedText = ⟨.ofJson listedJson, true⟩ ∧ listedJson.Distinct ∧
      ∃ r p, Rule.load .builtin listedText = .ok r ∧ listed.prepare .builtin = .ok p ∧
        p.logic = r ∧ p.description = "BLOCK if NOT txn.country IS NULL" ∧
        Command.print .sure .plain .builtin (.ok listedText) (.describe "-" "block") =
          ⟨.ok (), "BLOCK if NOT txn.country IS NULL\n"⟩ := by
  have htext : Document.read listedText = ⟨.ofJson listedJson, true⟩ := by cbv
  have hchild : Json.Distinct
      (.array [.string "CONDITION", .string "IS_NULL", .string "txn.country"]) :=
    .array (by simpa using ⟨.string _, .string _, .string _⟩)
  have hdistinct : listedJson.Distinct :=
    .object (by decide) (by simpa using ⟨.integer 1, .string _, hchild⟩)
  have hload : Rule.load .builtin listedText =
      .ok (.not (.condition ⟨.isNull, "txn.country", none⟩)) :=
    Rule.load_eq_ok_iff.2 ⟨(Rule.parse_eq_ok_iff htext).2 rfl, by decide +kernel⟩
  have htrim : (Text.trim "block").isEmpty = false := by decide
  obtain ⟨hiff, hsame, -⟩ :=
    load_iff_prepare htext hdistinct htrim (d := listed) rfl rfl rfl .builtin
  obtain ⟨p, hp⟩ := hiff.1 ⟨_, hload⟩
  obtain ⟨hlogic, hdescription, hprint⟩ := hsame _ p hload hp
  have hsentence : (Rule.not (.condition ⟨.isNull, "txn.country", none⟩)).sentence ⟨"block"⟩ =
      "BLOCK if NOT txn.country IS NULL" := by decide +kernel
  have hprinted := (hprint false "-").1
  rw [hdescription, hsentence] at hprinted
  exact ⟨htext, hdistinct, _, p, hload, hp, hlogic, hdescription.trans hsentence, hprinted⟩

end Draft

end Rulebook
