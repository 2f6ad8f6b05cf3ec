import Mathlib.Data.List.Forall2
import Mathlib.Data.List.Induction
import Rulebook.Proofs.Ruleset.Ids
import Rulebook.Proofs.Ruleset.RunOrder
import Rulebook.Proofs.Ruleset.Step
import Rulebook.Proofs.Ruleset.Validity

/-!
# What a new version takes over

A new version is made from the latest one. In a ruleset that was loaded this may be any of the
versions: their numbers need not go up, and several may have the highest one, of which the last
counts.

If the latest version is accepted by the check and there is a number left, nothing can go wrong:
the new version is a draft of what the latest one says. Its entries are copies under ids of their
own, and these are apart even where those of the latest version are not, because they are made from
the rule versions, none of which comes twice. The check asks no more of a draft than of another
version, and copies have the priorities of what they are copies of, so the new version is accepted
and run in the order of the latest one.

* `Rulebook.Version.IsLatestOf`, `Rulebook.Ruleset.existsUnique_isLatestOf`,
  `Rulebook.Ruleset.latest?_of_isLatestOf` – which version is the latest;
* `Rulebook.Version.SucceededBy` – what a new version takes over;
* `Rulebook.Ruleset.newVersion_succeeds` – **a new version can be started**, and takes it over.
-/

namespace Rulebook

/-! ### Which version is the latest -/

/-- **The latest of some versions**: none that stands before it has a higher number, and those
behind it have lower ones. -/
def Version.IsLatestOf (v : Version) (vs : List Version) : Prop :=
  ∃ pre post, vs = pre ++ v :: post ∧ (∀ w ∈ pre, w.number ≤ v.number) ∧
    ∀ w ∈ post, w.number < v.number

namespace Ruleset

variable {s : Ruleset} {v latest : Version} {vs : List Version}

theorem foldl_laterOf_of_lt (h : ∀ w ∈ vs, w.number < v.number) :
    vs.foldl laterOf (some v) = some v := by
  induction vs with
  | nil => rfl
  | cons w vs ih =>
    obtain ⟨hw, hvs⟩ := List.forall_mem_cons.mp h
    rw [List.foldl_cons, laterOf, if_pos hw, ih hvs]

theorem foldl_laterOf_of_le (h : ∀ w ∈ vs, w.number ≤ v.number) :
    laterOf (vs.foldl laterOf none) v = some v := by
  rcases vs with _ | ⟨w, vs⟩
  · rfl
  · obtain ⟨b, hb, hmem, -⟩ := foldl_laterOf vs w
    rw [List.foldl_cons, show laterOf none w = some w from rfl, hb, laterOf,
      if_neg (UInt32.not_lt.mpr (h b hmem))]

/-- **Some version is the latest**, if there are any. -/
theorem exists_isLatestOf (h : vs ≠ []) : ∃ v : Version, v.IsLatestOf vs := by
  -- From the end: it is the last version, or the latest of those before that.
  induction vs using List.reverseRecOn with
  | nil => exact absurd rfl h
  | append_singleton vs u ih =>
    by_cases hvs : vs = []
    · subst hvs
      exact ⟨u, [], [], rfl, by simp, by simp⟩
    · obtain ⟨b, pre, post, rfl, hpre, hpost⟩ := ih hvs
      by_cases hlt : u.number < b.number
      · refine ⟨b, pre, post ++ [u], by simp, hpre, ?_⟩
        exact List.forall_mem_append.mpr ⟨hpost, List.forall_mem_singleton.mpr hlt⟩
      · have hb : b.number ≤ u.number := UInt32.not_lt.mp hlt
        refine ⟨u, pre ++ b :: post, [], rfl, ?_, by simp⟩
        refine List.forall_mem_append.mpr ⟨fun w hw => UInt32.le_trans (hpre w hw) hb, ?_⟩
        refine List.forall_mem_cons.mpr ⟨hb, fun w hw => ?_⟩
        exact UInt32.le_trans (UInt32.le_of_lt (hpost w hw)) hb

theorem latest?_of_isLatestOf (h : v.IsLatestOf s.versions) : s.latest? = some v := by
  obtain ⟨pre, post, hversions, hpre, hpost⟩ := h
  rw [latest?_eq_foldl, hversions, List.foldl_append, List.foldl_cons, foldl_laterOf_of_le hpre,
    foldl_laterOf_of_lt hpost]

/-- **Of some versions exactly one is the latest.** -/
theorem existsUnique_isLatestOf (h : s.versions ≠ []) :
    ∃! v : Version, v.IsLatestOf s.versions := by
  obtain ⟨v, hv⟩ := exists_isLatestOf h
  refine ⟨v, hv, fun w hw => ?_⟩
  exact Option.some.inj ((latest?_of_isLatestOf hw).symm.trans (latest?_of_isLatestOf hv))

/-- If the latest version does not have the last number, no version has. -/
theorem hasRoom_of_isLatestOf (h : latest.IsLatestOf s.versions)
    (hroom : latest.number.toNat + 1 < UInt32.size) : s.HasRoom := by
  intro v hv
  have hle := UInt32.le_iff_toNat_le.mp ((latest?_eq_some (latest?_of_isLatestOf h)).2 v hv)
  omega

/-! ### Copies of entries -/

variable {versionId : String} {es : List Entry}

theorem map_ruleVersionId_copyEntries :
    (copyEntries versionId es).map Entry.ruleVersionId = es.map Entry.ruleVersionId := by
  simp [copyEntries, Function.comp_def]

theorem filterMap_priority_copyEntries :
    (copyEntries versionId es).filterMap Entry.priority = es.filterMap Entry.priority := by
  simp [copyEntries, List.filterMap_map]

/-- Copies are equal to what they are copies of but for their ids. -/
theorem forall₂_copyEntries :
    List.Forall₂ (fun d e : Entry => e = { d with id := e.id }) es (copyEntries versionId es) := by
  rw [copyEntries, List.forall₂_map_right_iff, List.forall₂_same]
  exact fun e _ => rfl

/-- **The ids of copies are apart** if no rule version comes twice. -/
theorem nodup_ids_copyEntries (h : (es.map Entry.ruleVersionId).Nodup) :
    ((copyEntries versionId es).map Entry.id).Nodup := by
  have hids : (copyEntries versionId es).map Entry.id =
      (es.map Entry.ruleVersionId).map (Version.entryIdOf versionId) := by
    simp [copyEntries, Function.comp_def]
  rw [hids]
  exact h.map fun _ _ => Version.entryIdOf_inj.mp

end Ruleset

/-! ### The new version -/

/-- **What a new version takes over** from another one, and what it does not. -/
structure Version.SucceededBy (latest next : Version) : Prop where
  /-- It is a draft. -/
  draft : next.status = .draft
  /-- Nobody has approved it. -/
  unapproved : next.approvedBy = none
  /-- Nobody has activated it. -/
  unactivated : next.activatedBy = none
  /-- It has the number that comes next. -/
  number : next.number.toNat = latest.number.toNat + 1
  /-- It has the same mode. -/
  mode : next.mode = latest.mode
  /-- It has the same precedence. -/
  precedence : next.precedence = latest.precedence
  /-- Its entries are the same, in the same order, but for their ids. -/
  entries : List.Forall₂ (fun d e : Entry => e = { d with id := e.id }) latest.entries next.entries
  /-- No two entries have the same id. -/
  ids : (next.entries.map Entry.id).Nodup
  /-- The check accepts it. -/
  check : next.check = .ok ()
  /-- It runs the same rule versions, in the same order. -/
  runOrder : next.runOrder.map Entry.ruleVersionId = latest.runOrder.map Entry.ruleVersionId

namespace Ruleset

variable {s : Ruleset} {latest : Version}

/-- The check accepts the new version if it accepts the latest one. -/
theorem valid_successor (h : latest.Valid) (createdBy : String) :
    (s.successor latest createdBy).Valid where
  precedence := h.precedence
  unarchived := List.forall_mem_map.mpr h.unarchived
  reviewed hfrozen := absurd rfl hfrozen
  ruleVersions := by
    rw [successor, map_ruleVersionId_copyEntries]
    exact h.ruleVersions
  prioritised hmode := List.forall_mem_map.mpr (h.prioritised hmode)
  priorities hmode := by
    rw [successor, filterMap_priority_copyEntries]
    exact h.priorities hmode

/-- **The new version is run in the order of the latest one.** -/
theorem runOrder_successor (s : Ruleset) (latest : Version) (createdBy : String) :
    (s.successor latest createdBy).runOrder =
      copyEntries (s.successor latest createdBy).id latest.runOrder := by
  have hsame : (s.successor latest createdBy).mode = latest.mode := rfl
  cases hmode : latest.mode with
  | parallel =>
    rw [Version.runOrder_of_parallel (hsame.trans hmode), Version.runOrder_of_parallel hmode]
    rfl
  | sequential =>
    have hcopied : Entry.InOrder (s.successor latest createdBy).entries
        (copyEntries (s.successor latest createdBy).id latest.runOrder) :=
      (Version.inOrder_runOrder hmode).map fun _ => rfl
    exact (Version.inOrder_runOrder (hsame.trans hmode)).eq hcopied

theorem succeededBy_successor (hroom : s.HasRoom) (hlatest : latest ∈ s.versions)
    (h : latest.Valid) (createdBy : String) :
    latest.SucceededBy (s.successor latest createdBy) where
  draft := rfl
  unapproved := rfl
  unactivated := rfl
  number := toNat_successor_number hroom hlatest createdBy
  mode := rfl
  precedence := rfl
  entries := forall₂_copyEntries
  ids := nodup_ids_copyEntries h.ruleVersions
  check := Version.check_eq_ok_iff.mpr (valid_successor h createdBy)
  runOrder := by rw [runOrder_successor, map_ruleVersionId_copyEntries]

/-- **A new version can be started** in every ruleset with versions if the check accepts the latest
one and there is a number left. It is put behind the others, which stay as they are, has a number
higher than all of them, and takes over what the latest one says. -/
theorem newVersion_succeeds (s : Ruleset) (h : s.versions ≠ []) :
    (∃! v : Version, v.IsLatestOf s.versions) ∧
      ∀ latest : Version, latest.IsLatestOf s.versions → latest.number.toNat + 1 < UInt32.size →
        latest.check = .ok () → ∀ createdBy, ∃ next,
          (newVersion createdBy).run s = (.ok next, { s with versions := s.versions ++ [next] }) ∧
          (∀ v ∈ s.versions, v.number < next.number) ∧ latest.SucceededBy next := by
  refine ⟨existsUnique_isLatestOf h, fun latest hislatest hnumber hcheck createdBy => ?_⟩
  have hfound := latest?_of_isLatestOf hislatest
  obtain ⟨hmem, hmax⟩ := latest?_eq_some hfound
  have hvalid := Version.check_eq_ok_iff.mp hcheck
  have hroom := hasRoom_of_isLatestOf hislatest hnumber
  have hnext := succeededBy_successor hroom hmem hvalid createdBy
  refine ⟨s.successor latest createdBy, ?_, fun v hv => ?_, hnext⟩
  · exact run_newVersion_eq_ok_iff.mpr ⟨latest, hfound, hvalid.precedence, rfl, rfl⟩
  · have hle := UInt32.le_iff_toNat_le.mp (hmax v hv)
    rw [UInt32.lt_iff_toNat_lt, hnext.number]
    omega

/-- A version with any id and number. -/
def imported (id : String) (number : UInt32) (entries : List Entry) : Version :=
  { firstVersion cardFraudInput with id, number, status := .approved, entries }

/-- Two entries under one id. -/
def sharingId : List Entry :=
  [⟨"e", "limit", "limit:2", true, some 2, some .approved, false⟩,
   ⟨"e", "land", "land:1", false, some 1, none, false⟩]

/-- Three versions under one id, two of them with the same number. The second one is the latest. -/
def tied : Ruleset :=
  { cardFraud with versions := [imported "v" 7 [], imported "v" 7 sharingId, imported "v" 3 []] }

theorem newVersion_succeeds_tied :
    tied.versions ≠ [] ∧ (imported "v" 7 sharingId).IsLatestOf tied.versions ∧
      (imported "v" 7 sharingId).number.toNat + 1 < UInt32.size ∧
      (imported "v" 7 sharingId).check = .ok () ∧
      ∃ next, (newVersion "analyst").run tied =
          (.ok next, { tied with versions := tied.versions ++ [next] }) ∧
        (∀ v ∈ tied.versions, v.number < next.number) ∧
        (imported "v" 7 sharingId).SucceededBy next := by
  have hsome : tied.versions ≠ [] := List.cons_ne_nil _ _
  have hlatest : (imported "v" 7 sharingId).IsLatestOf tied.versions :=
    ⟨[imported "v" 7 []], [imported "v" 3 []], rfl, by decide, by decide⟩
  exact ⟨hsome, hlatest, by decide, rfl,
    (newVersion_succeeds tied hsome).2 _ hlatest (by decide) rfl "analyst"⟩

end Ruleset

end Rulebook
