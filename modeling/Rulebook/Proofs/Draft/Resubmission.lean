import Rulebook.Proofs.Draft.Agreement
import Rulebook.Proofs.Rule.Numbers

/-!
# Submitting a prepared version again

The record of a prepared version has the members of a draft among others, so it can be submitted as
a draft itself. If the description was the author's, it has to be said again that it is wanted. What
is prepared then is the same version: preparing has reached a **fixed point**.

On the way the rule is written as a record, kept as a value and decoded again, which gives the rule
back because its numbers are finite (`Rulebook.Rule.finiteNumbers_of_decode`) and because the order
of members does not matter (`Rulebook.Rule.orderFree_decode`).

* `Rulebook.PreparedVersion.resubmission` – the record that is submitted again;
* `Rulebook.PreparedVersion.decode_resubmission` – **the draft that it describes**;
* `Rulebook.Draft.prepare_resubmission` – the version that this draft becomes.
-/

namespace Rulebook

/-! ### The record of a draft -/

namespace Draft

theorem plain_form : Form.Plain form.names := by decide

theorem orderFree_decode : Decode.OrderFree decode := by
  have hform : form.Respects Document.Alike :=
    ((((((((Form.Respects.required _ Decode.orderFree_string).map _).seq
      (.required _ Decode.orderFree_uint32)).seq (.required _ Decode.orderFree_kept)).seq
      (.required _ Decode.orderFree_kept)).seq (.required _ Decode.orderFree_string)).seq
      (.defaulted _ _ Decode.orderFree_string.option)).seq
      (.defaulted _ _ Decode.orderFree_string.option)).seq (.defaulted _ _ Decode.orderFree_bool)
  exact Decode.orderFree_decodeDocument hform plain_form

/-- The tree of a draft is what is kept of a part of its record. -/
theorem logic_of_read {s : Slots Document} {d : Draft} (h : form.read s = .ok d) :
    ∃ p, s.part? "logicAst" = some p ∧ Decode.kept p = .ok d.logic := by
  simp only [form, Form.read_seq_eq_ok_iff, Form.read_map_eq_ok_iff,
    Form.read_required_eq_ok_iff] at h
  obtain ⟨_, manual, ⟨_, description, ⟨_, summary, ⟨_, author, ⟨_, decision, ⟨_, logic, ⟨_, number,
    ⟨id, -, rfl⟩, -, rfl⟩, hlogic, rfl⟩, -, rfl⟩, -, rfl⟩, -, rfl⟩, -, rfl⟩, -, rfl⟩ := h
  exact hlogic

/-- The numbers of a tree that was read fit. -/
theorem numbersFit_of_ofText {text : String} {d : Draft} (h : Decode.ofText decode text = .ok d) :
    d.logic.json.NumbersFit := by
  obtain ⟨d', hdecode, hcomplete⟩ := bind_eq_ok_iff.1 h
  obtain rfl : d' = d := by
    split at hcomplete <;> cases hcomplete
    rfl
  have hlogic : ∀ outline : Outline Document, (∀ p ∈ outline.parts, p.NumbersFit) →
      form.decode "struct RuleDraft" (fun _ _ => .malformed) outline = .ok d' →
      d'.logic.json.NumbersFit := by
    intro outline hparts hd
    obtain ⟨s, hread, hmem⟩ := Form.exists_read_of_decode hd
    obtain ⟨p, hp, hkept⟩ := logic_of_read hread
    have hfit := hparts p (hmem _ p hp)
    rw [Decode.kept, Decode.whole] at hkept
    split at hkept
    · next j hj =>
      obtain hlogic : Opaque.ofJson j = d'.logic := Except.ok.inj hkept
      rw [← hlogic]
      exact (hfit.value hj).canonical
    · cases hkept
  have hroot := Document.read_numbersFit text
  generalize (Document.read text).root = root at hroot hdecode
  cases hroot with
  | list hitems => exact hlogic (.items _ _) hitems hdecode
  | record hmembers => exact hlogic (.members _ _) (List.forall_mem_map.2 hmembers) hdecode
  | _ => cases hdecode

end Draft

/-! ### The record of a prepared version -/

/-- A value with one more member, if it is an object. -/
def Json.withMember (name : String) (value : Json) (j : Json) : Json :=
  match j with
  | .object members => .object (members ++ [(name, value)])
  | j => j

namespace PreparedVersion

/-- **The record that is submitted again**: the one of the version, in which it is said again that
the description by the author is wanted, if it was. -/
def resubmission (p : PreparedVersion) : Json :=
  match p.source with
  | .manual => .withMember "manualDescriptionOverride" (.bool true) p.toJson
  | .template => p.toJson

/-- The draft that a prepared version is when it is submitted again. -/
def draft (p : PreparedVersion) : Draft where
  ruleId := p.ruleId
  number := p.number
  logic := .ofJson p.logic.toJson
  decision := p.decision
  createdBy := p.createdBy
  changeSummary := p.changeSummary
  description := some p.description
  manual := p.source = .manual

theorem resubmission_eq (p : PreparedVersion) :
    p.resubmission = .object p.resubmission.members := by
  unfold resubmission
  cases p.source <;> rfl

theorem nodup_resubmission (p : PreparedVersion) :
    (p.resubmission.members.map Prod.fst).Nodup := by
  rcases p with ⟨_, _, _, _, _, _ | _, _, _, _ | _⟩ <;>
    simp [resubmission, toJson, Json.withMember, Json.members, Json.optional]

theorem distinctValues_toJson (p : PreparedVersion) : Json.DistinctValues p.toJson.members := by
  refine .append (.append_optional ?fields ?summary) ?settled
  case fields =>
    simpa [Json.DistinctValues] using ⟨.string p.ruleId, .integer _, .string _,
      p.logic.distinct_toJson, p.decision.canonical.distinct⟩
  case summary => exact Option.forall_mem_map.2 fun note _ => .string note
  case settled => simpa [Json.DistinctValues] using ⟨.string p.createdBy, .string _, .string _⟩

theorem distinct_resubmission (p : PreparedVersion) : p.resubmission.Distinct := by
  have hnodup := p.nodup_resubmission
  unfold resubmission at hnodup ⊢
  cases hsource : p.source with
  | manual =>
    rw [hsource] at hnodup
    exact .object hnodup (p.distinctValues_toJson.append (List.forall_mem_singleton.2 (.bool true)))
  | template =>
    rw [hsource] at hnodup
    exact .object hnodup p.distinctValues_toJson

/-- What stands under a name in the record that is submitted again. -/
theorem valuesOf_resubmission (p : PreparedVersion) (name : String) :
    valuesOf name p.resubmission.members = valuesOf name p.toJson.members ++
      if "manualDescriptionOverride" = name ∧ p.source = .manual then [.bool true] else [] := by
  unfold resubmission
  cases p.source with
  | manual =>
    change valuesOf name (p.toJson.members ++ [_]) = _
    by_cases hname : "manualDescriptionOverride" = name <;> simp [valuesOf_cons, hname]
  | template => simp

section Reads

variable (p : PreparedVersion)

/-- Whether the description by the author is wanted is said only if it is. -/
theorem reads_manual : Form.Reads Document.ofJson p.resubmission.members
    (.defaulted "manualDescriptionOverride" Decode.bool false) p.draft.manual := by
  by_cases hsource : p.source = .manual
  · have hvalue : valuesOf "manualDescriptionOverride" p.resubmission.members = [.bool true] := by
      rw [valuesOf_resubmission]
      simp [toJson, valuesOf_cons, hsource]
    have hmanual : p.draft.manual = true := decide_eq_true hsource
    rw [hmanual]
    exact .defaulted hvalue rfl
  · have hvalue : valuesOf "manualDescriptionOverride" p.resubmission.members = [] := by
      rw [valuesOf_resubmission]
      simp [toJson, valuesOf_cons, hsource]
    have hmanual : p.draft.manual = false := decide_eq_false hsource
    rw [hmanual]
    exact .defaulted_of_absent hvalue

theorem reads_form :
    Form.Reads Document.ofJson p.resubmission.members Draft.form p.draft := by
  have hid : valuesOf "ruleId" p.resubmission.members = [.string p.ruleId] := by
    rw [valuesOf_resubmission]
    simp [toJson, valuesOf_cons]
  have hnumber : valuesOf "versionNumber" p.resubmission.members =
      [.integer p.number.toNat] := by
    rw [valuesOf_resubmission]
    simp [toJson, valuesOf_cons]
  have hlogic : valuesOf "logicAst" p.resubmission.members = [p.logic.toJson] := by
    rw [valuesOf_resubmission]
    simp [toJson, valuesOf_cons]
  have hdecision : valuesOf "decision" p.resubmission.members = [p.decision.json] := by
    rw [valuesOf_resubmission]
    simp [toJson, valuesOf_cons]
  have hauthor : valuesOf "createdBy" p.resubmission.members = [.string p.createdBy] := by
    rw [valuesOf_resubmission]
    simp [toJson, valuesOf_cons]
  have hsummary : valuesOf "changeSummary" p.resubmission.members =
      (p.changeSummary.map Json.string).toList := by
    rw [valuesOf_resubmission]
    simp [toJson, valuesOf_cons]
  have hdescription : valuesOf "description" p.resubmission.members = [.string p.description] := by
    rw [valuesOf_resubmission]
    simp [toJson, valuesOf_cons]
  have hkept : Decode.kept (.ofJson p.decision.json) = .ok p.decision := by
    rw [Decode.kept_ofJson, Opaque.ofJson_json]
  exact .seq (.seq (.seq (.seq (.seq (.seq (.seq (.map (.required hid rfl) rfl)
    (.required hnumber (Decode.uint32_toNat p.number)) rfl)
    (.required hlogic (Decode.kept_ofJson _)) rfl) (.required hdecision hkept) rfl)
    (.required hauthor rfl) rfl) (.optional hsummary fun _ => rfl) rfl)
    (.defaulted hdescription rfl) rfl) p.reads_manual rfl

/-- **The draft that the record describes.** -/
theorem decode_resubmission : Draft.decode (.ofJson p.resubmission) = .ok p.draft := by
  rw [resubmission_eq]
  exact Decode.decodeDocument_of_reads p.reads_form Draft.plain_form p.nodup_resubmission

end Reads

end PreparedVersion

/-! ### Preparing it again -/

namespace Draft

variable {catalog : Catalog} {d : Draft} {p : PreparedVersion}

/-- A description that was the author's is so again, and one that was not is made again. -/
theorem settle_draft (d : Draft) (rule : Rule) (action : String) :
    (d.prepared rule action).draft.settle rule action = d.settle rule action := by
  have hdraft : (d.prepared rule action).draft.manual? =
      (some (d.settle rule action).1).filter fun text =>
        decide ((d.settle rule action).2 = .manual) && !text.isEmpty := rfl
  rw [settle, hdraft]
  cases hmanual : d.manual? with
  | none =>
    have hsettle : d.settle rule action = (rule.sentence ⟨action⟩, .template) := by
      rw [settle, hmanual]
    simp [hsettle]
  | some text =>
    have hsettle : d.settle rule action = (text, .manual) := by rw [settle, hmanual]
    have hne : text.isEmpty = false := by
      have hwanted := (Option.filter_eq_some_iff.1 hmanual).2
      simpa using (Bool.and_eq_true_iff.1 hwanted).2
    simp [hsettle, hne, Option.filter]

theorem prepare_draft (hlogic : d.logic.json.NumbersFit) (h : d.prepare catalog = .ok p) :
    p.draft.prepare catalog = .ok p := by
  obtain ⟨r, action, hdecode, hcheck, haction, rfl⟩ := prepare_eq_ok_iff.1 h
  have hfinite : r.FiniteNumbers := Rule.finiteNumbers_of_decode hlogic hdecode
  have hagain : Rule.decode (.ofJson (d.prepared r action).draft.logic.json) = .ok r :=
    (decode_logic_eq_ok_iff r.distinct_toJson rfl).2 (Rule.decode_of_respelled hfinite (.same _))
  refine prepare_eq_ok_iff.2 ⟨r, action, hagain, hcheck, haction, ?_⟩
  rw [prepared, settle_draft]
  rfl

/-- **Preparing is done once and for all.** Take a draft whose tree has numbers such as are read
from a text, and the version that it is prepared to. The record of the version, submitted again, is
a draft that is prepared to the same version. The order of its members does not matter. -/
theorem prepare_resubmission (hlogic : d.logic.json.NumbersFit) (h : d.prepare catalog = .ok p) :
    ∃ d', d'.prepare catalog = .ok p ∧ Draft.decode (.ofJson p.resubmission) = .ok d' ∧
      ∀ j : Json, j.Distinct → j.canonical = p.resubmission.canonical →
        Draft.decode (.ofJson j) = .ok d' := by
  have hdecode := p.decode_resubmission
  refine ⟨p.draft, prepare_draft hlogic h, hdecode, fun j hj hcanonical => ?_⟩
  have halike : j.Alike p.resubmission := ⟨hj, p.distinct_resubmission, hcanonical⟩
  exact (orderFree_decode.decode_eq_ok_iff halike _).2 hdecode

/-- The value of a draft with a description by its author, written as a list. -/
def authoredJson : Json :=
  .array [.string "r-1", .integer 2,
    .array [.string "CONDITION", .string "GT", .string "txn.amount", .integer 500],
    .object [("action", .string "block")], .string "editor", .null, .string "Large amounts.",
    .bool true]

/-- A text of the value. -/
def authoredText : String :=
  "[\"r-1\", 2, [\"CONDITION\", \"GT\", \"txn.amount\", 500], \x7b\"action\": \"block\"\x7d, " ++
    "\"editor\", null, \"Large amounts.\", true]"

/-- The draft that the text describes. -/
def authored : Draft where
  ruleId := "r-1"
  number := 2
  logic := .ofJson
    (.array [.string "CONDITION", .string "GT", .string "txn.amount", .integer 500])
  decision := .ofJson (.object [("action", .string "block")])
  createdBy := "editor"
  changeSummary := none
  description := some "Large amounts."
  manual := true

theorem prepare_authored_again :
    Decode.ofText Draft.decode authoredText = .ok authored ∧
      ∃ p, authored.prepare .builtin = .ok p ∧ p.source = .manual ∧
        ∃ d, Draft.decode (.ofJson p.resubmission) = .ok d ∧ d.prepare .builtin = .ok p := by
  have hread : Document.read authoredText = ⟨.ofJson authoredJson, true⟩ := by cbv
  have htext : Decode.ofText Draft.decode authoredText = .ok authored := by
    rw [Decode.ofText, hread]
    rfl
  have hprepare : authored.prepare .builtin = .ok (authored.prepared
      (.condition ⟨.gt, "txn.amount", some (.scalar (.number (.ofInt 500)))⟩) "block") :=
    prepare_eq_ok_iff.2 ⟨_, _, rfl, by decide +kernel, rfl, rfl⟩
  obtain ⟨d, hagain, hdecode, -⟩ := prepare_resubmission (numbersFit_of_ofText htext) hprepare
  exact ⟨htext, _, hprepare, rfl, d, hdecode, hagain⟩

end Draft

end Rulebook
