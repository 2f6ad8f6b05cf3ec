import Mathlib.Data.Option.Basic
import Rulebook.Proofs.Json.OrderFree
import Rulebook.Proofs.Ruleset.Precedence

/-!
# Storing and reloading a ruleset

A ruleset is stored as its record and read back from it. Nothing is lost but one distinction: a
precedence that is `null` is read back as absent. The operations do not see the difference, since
they ask of a precedence only whether there is one (`Rulebook.Operation.maps_perform`), and neither
does a record, which writes `null` in both cases. So from the stored ruleset and from the reloaded
one every history looks the same.

* `Rulebook.Ruleset.reloaded` – what is read back;
* `Rulebook.Entry.decode_toJson`, `Rulebook.Version.decode_toJson`,
  `Rulebook.Ruleset.decode_toJson` – **that it is**;
* `Rulebook.Ruleset.transcript` – what a history shows, step by step;
* `Rulebook.Ruleset.transcript_eq_of_reloaded_eq` – **rulesets that are read back as the same one**
  show the same.
-/

namespace Rulebook

/-! ### Single values -/

/-- A value that is kept, unless it is `null`. -/
def Opaque.unlessNull (p : Option Opaque) : Option Opaque := p.filter fun o => !o.isNull

theorem Opaque.unlessNull_unlessNull (p : Option Opaque) :
    unlessNull (unlessNull p) = unlessNull p := by
  simp [unlessNull, Option.filter_filter]

/-- A record does not tell a value that is `null` from none. -/
theorem Opaque.json_unlessNull (p : Option Opaque) :
    ((unlessNull p).map Opaque.json).getD .null = (p.map Opaque.json).getD .null := by
  rcases p with _ | ⟨j, hj⟩
  · rfl
  · cases j <;> rfl

/-- What operations ask of a precedence they ask as well of what is read back of it. -/
theorem Opaque.keepsPrecedence_unlessNull : KeepsPrecedence Opaque.unlessNull where
  hasPrecedence_eq p := by
    rcases p with _ | ⟨j, hj⟩
    · rfl
    · cases j <;> rfl
  none_eq := rfl

namespace Decode

theorem int64_toInt (p : Int64) : int64 (.integer p.toInt) = .ok p := by
  rw [int64, if_pos ⟨p.minValue_le_toInt, p.toInt_le⟩, Int64.ofInt_toInt]

theorem name_mode (m : Mode) : name Mode.table (.string m.name) = .ok m := by
  cases m <;> rfl

theorem name_status (s : Status) : name Status.table (.string s.name) = .ok s := by
  cases s <;> rfl

theorem name_ruleStatus (s : RuleStatus) : name RuleStatus.table (.string s.name) = .ok s := by
  cases s <;> rfl

/-- A list of records is decoded to what they describe. -/
theorem list_map {α β : Type} {decode : Document → Decoded β} {toJson : α → Json} {f : α → β}
    {xs : List α} (h : ∀ x ∈ xs, decode (.ofJson (toJson x)) = .ok (f x)) :
    list decode (.ofJson (.array (xs.map toJson))) = .ok (xs.map f) := by
  rw [list_array_eq_ok_iff, List.forall₂_map_left_iff, List.forall₂_map_right_iff,
    List.forall₂_same]
  exact h

/-- What is kept is written as `null` if there is nothing, and `null` is read as nothing. -/
theorem option_kept (p : Option Opaque) :
    option kept (.ofJson ((p.map Opaque.json).getD .null)) = .ok (Opaque.unlessNull p) := by
  rcases p with _ | ⟨j, hj⟩
  · rfl
  · have hkept : kept (.ofJson j) = .ok ⟨j, hj⟩ := by
      rw [kept_ofJson]
      exact congrArg Except.ok (Opaque.ofJson_json ⟨j, hj⟩)
    cases j with
    | null => rfl
    | _ => exact map_eq_ok_iff.2 ⟨_, hkept, rfl⟩

end Decode

/-! ### Entries -/

namespace Entry

theorem plain_form : Form.Plain form.names := by decide

theorem orderFree_decode : Decode.OrderFree decode := by
  have hform : form.Respects Document.Alike :=
    (((((((Form.Respects.required _ Decode.orderFree_string).map _).seq
      (.required _ Decode.orderFree_string)).seq (.required _ Decode.orderFree_string)).seq
      (.defaulted _ _ Decode.orderFree_bool)).seq
      (.defaulted _ _ Decode.orderFree_int64.option)).seq
      (.defaulted _ _ (Decode.orderFree_name _).option)).seq (.defaulted _ _ Decode.orderFree_bool)
  exact Decode.orderFree_decodeDocument hform plain_form

variable (e : Entry)

theorem nodup_toJson : (e.toJson.members.map Prod.fst).Nodup := by
  rcases e with ⟨_, _, _, _, _ | _, _ | _, _ | _⟩ <;> simp [toJson, Json.optional]

theorem distinctValues_toJson : Json.DistinctValues e.toJson.members := by
  refine .append_optional (.append_optional (.append_optional ?fields ?priority) ?status) ?archived
  case fields =>
    simpa [Json.DistinctValues] using ⟨.string e.id, .string _, .string _, .bool _⟩
  case priority => exact Option.forall_mem_map.2 fun p _ => .integer _
  case status => exact Option.forall_mem_map.2 fun s _ => .string _
  case archived =>
    split
    · rintro _ ⟨⟩
      exact .bool true
    · exact nofun

theorem distinct_toJson : e.toJson.Distinct := .object e.nodup_toJson e.distinctValues_toJson

/-- That the rule is archived is said only if it is. -/
theorem reads_archived : Form.Reads Document.ofJson e.toJson.members
    (.defaulted "archived" Decode.bool false) e.archived := by
  cases harchived : e.archived with
  | false =>
    have hvalue : valuesOf "archived" e.toJson.members = [] := by
      simp [toJson, valuesOf_cons, harchived]
    exact .defaulted_of_absent hvalue
  | true =>
    have hvalue : valuesOf "archived" e.toJson.members = [.bool true] := by
      simp [toJson, valuesOf_cons, harchived]
    exact .defaulted hvalue rfl

theorem reads_form : Form.Reads Document.ofJson e.toJson.members form e := by
  have hid : valuesOf "entryId" e.toJson.members = [.string e.id] := by
    simp [toJson, valuesOf_cons]
  have hrule : valuesOf "ruleId" e.toJson.members = [.string e.ruleId] := by
    simp [toJson, valuesOf_cons]
  have hversion : valuesOf "ruleVersionId" e.toJson.members = [.string e.ruleVersionId] := by
    simp [toJson, valuesOf_cons]
  have henabled : valuesOf "enabled" e.toJson.members = [.bool e.enabled] := by
    simp [toJson, valuesOf_cons]
  have hpriority : valuesOf "orderPriority" e.toJson.members =
      (e.priority.map fun p => Json.integer p.toInt).toList := by
    simp [toJson, valuesOf_cons]
  have hstatus : valuesOf "ruleVersionStatus" e.toJson.members =
      (e.ruleStatus.map fun s => Json.string s.name).toList := by
    simp [toJson, valuesOf_cons]
  exact .seq (.seq (.seq (.seq (.seq (.seq (.map (.required hid rfl) rfl) (.required hrule rfl) rfl)
    (.required hversion rfl) rfl) (.defaulted henabled rfl) rfl)
    (.optional hpriority fun p => Decode.map_eq_ok_iff.2 ⟨p, Decode.int64_toInt p, rfl⟩) rfl)
    (.optional hstatus fun s => Decode.map_eq_ok_iff.2 ⟨s, Decode.name_ruleStatus s, rfl⟩) rfl)
    e.reads_archived rfl

/-- **An entry is read back from its record.** -/
theorem decode_toJson : decode (.ofJson e.toJson) = .ok e :=
  Decode.decodeDocument_of_reads e.reads_form plain_form e.nodup_toJson

end Entry

/-! ### Versions -/

namespace Version

/-- **A version that is read back**: a precedence that is `null` is gone. -/
def reloaded (v : Version) : Version :=
  { v with precedence := Opaque.unlessNull v.precedence }

theorem plain_form : Form.Plain form.names := by decide

theorem orderFree_decode : Decode.OrderFree decode := by
  have hform : form.Respects Document.Alike :=
    ((((((((((Form.Respects.required _ Decode.orderFree_string).map _).seq
      (.required _ Decode.orderFree_string)).seq (.required _ Decode.orderFree_uint32)).seq
      (.required _ (Decode.orderFree_name _))).seq (.required _ (Decode.orderFree_name _))).seq
      (.defaulted _ _ Decode.orderFree_kept.option)).seq
      (.required _ Decode.orderFree_string)).seq
      (.defaulted _ _ Decode.orderFree_string.option)).seq
      (.defaulted _ _ Decode.orderFree_string.option)).seq
      (.defaulted _ _ Entry.orderFree_decode.list)
  exact Decode.orderFree_decodeDocument hform plain_form

variable (v : Version)

theorem nodup_toJson : (v.toJson.members.map Prod.fst).Nodup := by
  rcases v with ⟨_, _, _, _, _, _, _, _ | _, _ | _, _⟩ <;> simp [toJson, Json.optional]

theorem distinct_precedence : ((v.precedence.map Opaque.json).getD .null).Distinct := by
  cases v.precedence with
  | none => exact .null
  | some o => exact o.canonical.distinct

theorem distinctValues_toJson : Json.DistinctValues v.toJson.members := by
  refine .append (.append_optional (.append_optional ?fields ?approved) ?activated) ?entries
  case fields =>
    simpa [Json.DistinctValues] using ⟨.string v.id, .string _, .integer _, .string _, .string _,
      v.distinct_precedence, .string _⟩
  case approved => exact Option.forall_mem_map.2 fun actor _ => .string actor
  case activated => exact Option.forall_mem_map.2 fun actor _ => .string actor
  case entries =>
    exact List.forall_mem_singleton.2 (.array (List.forall_mem_map.2 fun e _ => e.distinct_toJson))

theorem distinct_toJson : v.toJson.Distinct := .object v.nodup_toJson v.distinctValues_toJson

theorem reads_form : Form.Reads Document.ofJson v.toJson.members form v.reloaded := by
  have hid : valuesOf "rulesetVersionId" v.toJson.members = [.string v.id] := by
    simp [toJson, valuesOf_cons]
  have hruleset : valuesOf "rulesetId" v.toJson.members = [.string v.rulesetId] := by
    simp [toJson, valuesOf_cons]
  have hnumber : valuesOf "versionNumber" v.toJson.members = [.integer v.number.toNat] := by
    simp [toJson, valuesOf_cons]
  have hstatus : valuesOf "status" v.toJson.members = [.string v.status.name] := by
    simp [toJson, valuesOf_cons]
  have hmode : valuesOf "executionMode" v.toJson.members = [.string v.mode.name] := by
    simp [toJson, valuesOf_cons]
  have hprecedence : valuesOf "decisionPrecedence" v.toJson.members =
      [(v.precedence.map Opaque.json).getD .null] := by
    simp [toJson, valuesOf_cons]
  have hauthor : valuesOf "createdBy" v.toJson.members = [.string v.createdBy] := by
    simp [toJson, valuesOf_cons]
  have happroved : valuesOf "approvedBy" v.toJson.members =
      (v.approvedBy.map Json.string).toList := by
    simp [toJson, valuesOf_cons]
  have hactivated : valuesOf "activatedBy" v.toJson.members =
      (v.activatedBy.map Json.string).toList := by
    simp [toJson, valuesOf_cons]
  have hentries : valuesOf "entries" v.toJson.members =
      [.array (v.entries.map Entry.toJson)] := by
    simp [toJson, valuesOf_cons]
  have hlist : Decode.list Entry.decode (.ofJson (.array (v.entries.map Entry.toJson))) =
      .ok v.entries := by
    rw [Decode.list_map (f := fun e => e) fun e _ => e.decode_toJson, List.map_id']
  exact .seq (.seq (.seq (.seq (.seq (.seq (.seq (.seq (.seq (.map (.required hid rfl) rfl)
    (.required hruleset rfl) rfl) (.required hnumber (Decode.uint32_toNat v.number)) rfl)
    (.required hstatus (Decode.name_status v.status)) rfl)
    (.required hmode (Decode.name_mode v.mode)) rfl)
    (.defaulted hprecedence (Decode.option_kept v.precedence)) rfl) (.required hauthor rfl) rfl)
    (.optional happroved fun _ => rfl) rfl) (.optional hactivated fun _ => rfl) rfl)
    (.defaulted hentries hlist) rfl

/-- **What is read back from the record of a version.** -/
theorem decode_toJson : decode (.ofJson v.toJson) = .ok v.reloaded :=
  Decode.decodeDocument_of_reads v.reads_form plain_form v.nodup_toJson

theorem toJson_reloaded : v.reloaded.toJson = v.toJson := by
  rw [toJson, toJson, reloaded, Opaque.json_unlessNull]

theorem reloaded_reloaded : v.reloaded.reloaded = v.reloaded := by
  rw [reloaded, reloaded, Opaque.unlessNull_unlessNull]

end Version

/-! ### Rulesets -/

namespace Ruleset

/-- **A ruleset that is read back**: precedences that are `null` are gone from its versions. -/
def reloaded (s : Ruleset) : Ruleset :=
  { s with versions := s.versions.map Version.reloaded }

theorem plain_form : Form.Plain form.names := by decide

theorem orderFree_decode : Decode.OrderFree decode := by
  have hform : form.Respects Document.Alike :=
    ((((((Form.Respects.required _ Decode.orderFree_string).map _).seq
      (.required _ Decode.orderFree_string)).seq (.defaulted _ _ Decode.orderFree_string)).seq
      (.defaulted _ _ Decode.orderFree_string.list)).seq (.required _ Decode.orderFree_string)).seq
      (.defaulted _ _ Version.orderFree_decode.list)
  exact Decode.orderFree_decodeDocument hform plain_form

variable (s : Ruleset)

theorem nodup_toJson : (s.toJson.members.map Prod.fst).Nodup := by
  simp [toJson]

theorem distinctValues_toJson : Json.DistinctValues s.toJson.members := by
  have htags : (Json.array (s.tags.map .string)).Distinct :=
    .array (List.forall_mem_map.2 fun t _ => .string t)
  have hversions : (Json.array (s.versions.map Version.toJson)).Distinct :=
    .array (List.forall_mem_map.2 fun v _ => v.distinct_toJson)
  simpa [Json.DistinctValues, toJson] using
    ⟨.string s.id, .string _, .string _, htags, .string _, hversions⟩

theorem distinct_toJson : s.toJson.Distinct := .object s.nodup_toJson s.distinctValues_toJson

theorem reads_form : Form.Reads Document.ofJson s.toJson.members form s.reloaded := by
  have hid : valuesOf "rulesetId" s.toJson.members = [.string s.id] := by
    simp [toJson, valuesOf_cons]
  have hname : valuesOf "name" s.toJson.members = [.string s.name] := by
    simp [toJson, valuesOf_cons]
  have hdescription : valuesOf "description" s.toJson.members = [.string s.description] := by
    simp [toJson, valuesOf_cons]
  have htags : valuesOf "tags" s.toJson.members = [.array (s.tags.map .string)] := by
    simp [toJson, valuesOf_cons]
  have hauthor : valuesOf "createdBy" s.toJson.members = [.string s.createdBy] := by
    simp [toJson, valuesOf_cons]
  have hversions : valuesOf "versions" s.toJson.members =
      [.array (s.versions.map Version.toJson)] := by
    simp [toJson, valuesOf_cons]
  have hlist : Decode.list Decode.string (.ofJson (.array (s.tags.map .string))) = .ok s.tags := by
    rw [Decode.list_map (f := fun t => t) fun t _ => rfl, List.map_id']
  exact .seq (.seq (.seq (.seq (.seq (.map (.required hid rfl) rfl) (.required hname rfl) rfl)
    (.defaulted hdescription rfl) rfl) (.defaulted htags hlist) rfl) (.required hauthor rfl) rfl)
    (.defaulted hversions (Decode.list_map fun v _ => v.decode_toJson)) rfl

/-- **What is read back from the record of a ruleset.** -/
theorem decode_toJson : decode (.ofJson s.toJson) = .ok s.reloaded :=
  Decode.decodeDocument_of_reads s.reads_form plain_form s.nodup_toJson

theorem toJson_reloaded : s.reloaded.toJson = s.toJson := by
  have hversions : s.reloaded.versions.map Version.toJson = s.versions.map Version.toJson := by
    rw [reloaded, List.map_map]
    exact List.map_congr_left fun v _ => v.toJson_reloaded
  rw [toJson, toJson, hversions]
  rfl

/-- What is read back is read back as it is. -/
theorem reloaded_reloaded : s.reloaded.reloaded = s.reloaded := by
  have hversions : (s.versions.map Version.reloaded).map Version.reloaded =
      s.versions.map Version.reloaded := by
    rw [List.map_map]
    exact List.map_congr_left fun v _ => v.reloaded_reloaded
  rw [reloaded, reloaded, hversions]

end Ruleset

/-! ### What a history shows -/

/-- The JSON form of an answer: the record that is answered, if there is one. -/
def Answer.toJson : Answer → Json
  | .version v => v.toJson
  | .entry e => e.toJson
  | .done => .null

/-- An answer with its precedence read back has the same form. -/
theorem Answer.toJson_mapPrecedence (a : Answer) :
    (a.mapPrecedence Opaque.unlessNull).toJson = a.toJson := by
  cases a with
  | version v => exact v.toJson_reloaded
  | entry e => rfl
  | done => rfl

namespace Ruleset

/-- **What a history shows**, step by step: the form of what is answered, or the error, and the
form of the ruleset that is left. -/
def transcript : Ruleset → List Operation → List (Except RuleError Json × Json)
  | _, [] => []
  | s, op :: ops =>
    ((op.perform.run s).1.map Answer.toJson, (op.perform.run s).2.toJson) ::
      transcript (op.perform.run s).2 ops

variable {s t : Ruleset}

/-- One step from rulesets that are read back as the same one: it shows the same and leads to such
rulesets again. -/
theorem step_eq_of_reloaded_eq (h : s.reloaded = t.reloaded) (op : Operation) :
    (op.perform.run s).1.map Answer.toJson = (op.perform.run t).1.map Answer.toJson ∧
      (op.perform.run s).2.reloaded = (op.perform.run t).2.reloaded := by
  have hmaps := op.maps_perform Opaque.keepsPrecedence_unlessNull
  have hrun := (hmaps s).symm.trans ((congrArg _ h).trans (hmaps t))
  obtain ⟨hanswer, hstate⟩ := Prod.mk.inj hrun
  refine ⟨?_, hstate⟩
  have hforms := congrArg (Except.map Answer.toJson) hanswer
  have hcomp : ∀ r : Except RuleError Answer,
      (r.map (Answer.mapPrecedence Opaque.unlessNull)).map Answer.toJson =
        r.map Answer.toJson := by
    rintro (x | a)
    · rfl
    · exact congrArg Except.ok a.toJson_mapPrecedence
  rwa [hcomp, hcomp] at hforms

/-- **Rulesets that are read back as the same one show the same** in every history. -/
theorem transcript_eq_of_reloaded_eq (h : s.reloaded = t.reloaded) (ops : List Operation) :
    s.transcript ops = t.transcript ops := by
  induction ops generalizing s t with
  | nil => rfl
  | cons op ops ih =>
    obtain ⟨hanswer, hstate⟩ := step_eq_of_reloaded_eq h op
    have hjson : (op.perform.run s).2.toJson = (op.perform.run t).2.toJson := by
      rw [← toJson_reloaded, hstate, toJson_reloaded]
    rw [transcript, transcript, hanswer, hjson, ih hstate]

/-- **Storing and reloading does not show.** From its record, written in any order of its members, a
ruleset is read back but for the precedences that are `null`, which are gone. What is read back has
the same record, and every history from it shows the same, step by step. -/
theorem decode_toJson_and_transcript (s : Ruleset) :
    decode (.ofJson s.toJson) = .ok s.reloaded ∧
      (∀ j : Json, j.Distinct → j.canonical = s.toJson.canonical →
        decode (.ofJson j) = .ok s.reloaded) ∧
      s.reloaded.toJson = s.toJson ∧
      ∀ ops, s.reloaded.transcript ops = s.transcript ops := by
  have hdecode := s.decode_toJson
  refine ⟨hdecode, fun j hj hcanonical => ?_, s.toJson_reloaded, fun ops => ?_⟩
  · have halike : j.Alike s.toJson := ⟨hj, s.distinct_toJson, hcanonical⟩
    exact (orderFree_decode.decode_eq_ok_iff halike _).2 hdecode
  · exact transcript_eq_of_reloaded_eq s.reloaded_reloaded ops

/-- A ruleset whose only version has a precedence that is `null`. -/
def withNull : Ruleset where
  id := "rs"
  name := "cards"
  description := ""
  tags := ["fraud"]
  createdBy := "editor"
  versions := [{
    id := "rs-v1"
    rulesetId := "rs"
    number := 1
    status := .draft
    mode := .sequential
    precedence := some (.ofJson .null)
    createdBy := "editor"
    approvedBy := none
    activatedBy := none
    entries := [] }]

theorem decode_withNull_reversed :
    withNull.versions.map (fun v => v.precedence.isSome) = [true] ∧
      withNull.reloaded.versions.map (fun v => v.precedence.isSome) = [false] ∧
      decode (.ofJson (.object withNull.toJson.members.reverse)) = .ok withNull.reloaded ∧
      withNull.reloaded.transcript [.approve "rs-v1" "checker", .newVersion "editor"] =
        withNull.transcript [.approve "rs-v1" "checker", .newVersion "editor"] := by
  obtain ⟨-, hrespelled, -, htranscript⟩ := decode_toJson_and_transcript withNull
  have hdistinct : (Json.object withNull.toJson.members.reverse).Distinct := by
    cases withNull.distinct_toJson with
    | object hnames hvalues =>
      refine .object ?_ fun m hm => hvalues m (List.mem_reverse.1 hm)
      rw [List.map_reverse]
      exact (List.reverse_perm _).nodup_iff.2 hnames
  have hcanonical : (Json.object withNull.toJson.members.reverse).canonical =
      withNull.toJson.canonical := rfl
  exact ⟨rfl, rfl, hrespelled _ hdistinct hcanonical, htranscript _⟩

end Ruleset

end Rulebook
