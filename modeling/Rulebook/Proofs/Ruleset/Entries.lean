import Rulebook.Proofs.Ruleset.SingleActive
import Rulebook.Proofs.Ruleset.Validity

/-!
# What the operations keep of the entries

An entry is named after its version and its rule version, and an edit of an entry spares the
entries that have its name when it looks for clashes of priorities. That priorities stay apart
therefore hangs on names that stay apart, which in turn hangs on rule versions that do. The mode
of a version plays no part in this: priorities that a parallel version does not look at are kept
apart all the same, and a switch back to sequential finds them so. What a switch may find missing
is a priority, and nothing else.

* `Rulebook.Version.Kept` – what the operations keep of a version;
* `Rulebook.Version.Edited.kept`, `Rulebook.Ruleset.Reachable.kept` – that they do;
* `Rulebook.Version.Kept.fault_cases` – what the check can still report of a version;
* `Rulebook.Ruleset.Reachable.nodup_entryIds` – no two entries of a ruleset have the same id;
* `Rulebook.Ruleset.Reachable.kept_and_fault` – all of this, and what the check can still report.
-/

namespace Rulebook

/-! ### Versions -/

namespace Version

/-- **What the operations keep of a version.** -/
structure Kept (v : Version) : Prop where
  /-- A parallel version has a precedence. -/
  precedence : v.mode = .parallel → hasPrecedence v.precedence = true
  /-- No rule is archived. -/
  unarchived : ∀ e ∈ v.entries, e.archived = false
  /-- No rule version comes twice. -/
  ruleVersions : (v.entries.map Entry.ruleVersionId).Nodup
  /-- No priority comes twice, in whatever mode the version is. -/
  priorities : (v.entries.filterMap Entry.priority).Nodup
  /-- An entry is named after the version and its rule version. -/
  ids : ∀ e ∈ v.entries, e.id = entryIdOf v.id e.ruleVersionId

variable {v v' : Version} {e : VersionEdit} {answer : Option Entry}

theorem Kept.nodup_ids (h : v.Kept) : (v.entries.map Entry.id).Nodup := by
  have hruleVersions := h.ruleVersions
  rw [List.nodup_iff_pairwise_ne, List.pairwise_map] at hruleVersions ⊢
  refine hruleVersions.imp_of_mem fun {d e} hd he hne => ?_
  rw [h.ids d hd, h.ids e he]
  exact fun heq => hne (entryIdOf_inj.mp heq)

/-- **An entry may come to the end** if it is in order by itself and neither its rule version nor
its priority is there yet. -/
theorem Kept.append (h : v.Kept) {e : Entry} (hunarchived : e.archived = false)
    (hfresh : ∀ d ∈ v.entries, d.ruleVersionId ≠ e.ruleVersionId)
    (hfree : ∀ p, e.priority = some p → p ∉ v.entries.filterMap Entry.priority)
    (hid : e.id = entryIdOf v.id e.ruleVersionId) :
    ({ v with entries := v.entries ++ [e] } : Version).Kept := by
  refine ⟨h.precedence, ?_, ?_, ?_, ?_⟩
  · exact List.forall_mem_append.mpr ⟨h.unarchived, List.forall_mem_singleton.mpr hunarchived⟩
  · have hnew : e.ruleVersionId ∉ v.entries.map Entry.ruleVersionId := by
      intro hmem
      obtain ⟨d, hd, heq⟩ := List.mem_map.mp hmem
      exact hfresh d hd heq
    simp only [List.map_append, List.map_cons, List.map_nil]
    refine List.nodup_middle.mpr (List.nodup_cons.mpr ⟨?_, ?_⟩)
    · simpa using hnew
    · simpa using h.ruleVersions
  · rcases hpriority : e.priority with _ | p
    · simpa [hpriority] using h.priorities
    · simp only [List.filterMap_append, List.filterMap_cons_some hpriority, List.filterMap_nil]
      refine List.nodup_middle.mpr (List.nodup_cons.mpr ⟨?_, ?_⟩)
      · simpa using hfree p hpriority
      · simpa using h.priorities
  · exact List.forall_mem_append.mpr ⟨h.ids, List.forall_mem_singleton.mpr hid⟩

/-- A new priority is none that a version has already. -/
theorem notMem_priorities_of_newPriority {given : Option Int64} {p : Int64}
    (h : v.newPriority given = .ok (some p)) : p ∉ v.entries.filterMap Entry.priority := by
  rcases newPriority_eq_ok_iff.mp h with ⟨-, hnone⟩ | ⟨q, -, -, hq, hfree⟩
  · cases hnone
  · obtain rfl := Option.some.inj hq
    intro hmem
    obtain ⟨e, he, hpriority⟩ := List.mem_filterMap.mp hmem
    exact hfree e he hpriority

/-- **A priority that is free but for an entry** is that of no other one: the others have
other ids. -/
theorem Kept.notMem_priorities_of_priorityFree (h : v.Kept) {id : String} {p : Int64}
    {pre post : List Entry} {e : Entry}
    (hat : FirstAt (fun d : Entry => d.id == id) v.entries pre e post)
    (hfree : v.priorityFree p (some id) = true) :
    p ∉ (pre ++ post).filterMap Entry.priority := by
  have hid : e.id = id := by simpa using hat.picked
  intro hmem
  obtain ⟨d, hd, hpriority⟩ := List.mem_filterMap.mp hmem
  have hsame : d.id = id :=
    Option.some.inj (priorityFree_iff.mp hfree d (hat.sublist.subset hd) hpriority)
  exact key_ne_of_nodup h.nodup_ids hat.eq d hd (hsame.trans hid.symm)

/-- **A change of an entry** keeps the names, and priorities that are apart. -/
theorem Kept.replace (h : v.Kept) {pre post : List Entry} {d e : Entry}
    (hentries : v.entries = pre ++ d :: post) (harchived : e.archived = d.archived)
    (hruleVersion : e.ruleVersionId = d.ruleVersionId) (hid : e.id = d.id)
    (hpriority : e.priority = d.priority ∨
      ∃ p, e.priority = some p ∧ p ∉ (pre ++ post).filterMap Entry.priority) :
    ({ v with entries := pre ++ e :: post } : Version).Kept := by
  obtain ⟨hfits, hunarchived, hruleVersions, hpriorities, hids⟩ := h
  rw [hentries] at hunarchived hruleVersions hpriorities hids
  refine ⟨hfits, ?_, ?_, ?_, ?_⟩
  · rw [List.forall_mem_append, List.forall_mem_cons] at hunarchived ⊢
    rwa [harchived]
  · simpa [hruleVersion] using hruleVersions
  · rcases hpriority with heq | ⟨p, hsome, hnew⟩
    · simpa [List.filterMap_cons, heq] using hpriorities
    · have hothers : ((pre ++ post).filterMap Entry.priority).Nodup :=
        hpriorities.sublist (((List.sublist_cons_self d post).append_left pre).filterMap _)
      rw [List.filterMap_append] at hnew hothers
      simp only [List.filterMap_append, List.filterMap_cons_some hsome]
      exact List.nodup_middle.mpr (List.nodup_cons.mpr ⟨hnew, hothers⟩)
  · rw [List.forall_mem_append, List.forall_mem_cons] at hids ⊢
    rwa [hruleVersion, hid]

/-- **Every edit keeps it.** -/
theorem Edited.kept (h : v.Edited e answer v') (hv : v.Kept) : v'.Kept := by
  cases h with
  | settings hdraft hfits =>
    exact ⟨hfits, hv.unarchived, hv.ruleVersions, hv.priorities, hv.ids⟩
  | @added r enabled given priority hdraft hfits hkept hfresh hgiven =>
    refine hv.append rfl hfresh ?_ rfl
    rintro p rfl
    exact notMem_priorities_of_newPriority hgiven
  | @patched id enabled priority pre post e hdraft hfree hat =>
    refine hv.replace hat.eq rfl rfl rfl ?_
    cases priority with
    | none => exact Or.inl rfl
    | some p => exact Or.inr ⟨p, rfl, hv.notMem_priorities_of_priorityFree hat (hfree p rfl).2⟩
  | @deleted id pre post e hdraft hat =>
    have hsub := hat.sublist
    exact ⟨hv.precedence, fun d hd => hv.unarchived d (hsub.subset hd),
      hv.ruleVersions.sublist (hsub.map _), hv.priorities.sublist (hsub.filterMap _),
      fun d hd => hv.ids d (hsub.subset hd)⟩

theorem Kept.freeze (h : v.Kept) (actor : String) : (v.freeze actor).Kept :=
  ⟨h.precedence, h.unarchived, h.ruleVersions, h.priorities, h.ids⟩

/-- **What the check can report of a version that is so kept**: a priority that is missing, or a
draft of a rule version in a version that is no draft. -/
theorem Kept.fault_cases (h : v.Kept) {x : RuleError} (hfault : v.Fault x) :
    (x = .unacceptable .priorityRequired ∧ v.mode = .sequential ∧
      ∃ e ∈ v.entries, e.priority = none) ∨
    (x = .unacceptable .draftRuleVersion ∧ v.status ≠ .draft ∧
      ∃ e ∈ v.entries, e.ruleStatus = some .draft) := by
  rcases hfault.cases_of_nodup h.precedence h.unarchived h.ruleVersions with
    hmissing | ⟨-, -, htwice⟩ | hdraft
  · exact Or.inl hmissing
  · exact absurd h.priorities htwice
  · exact Or.inr hdraft

end Version

/-! ### Rulesets -/

namespace Ruleset

variable {s : Ruleset} {latest v : Version}

/-- **A version that is made from another one** has its entries under new names. -/
theorem kept_successor (h : latest.Kept) (createdBy : String) :
    (s.successor latest createdBy).Kept := by
  refine ⟨h.precedence, ?_, ?_, ?_, ?_⟩
  · intro e he
    obtain ⟨d, hd, rfl⟩ := List.mem_map.mp he
    exact h.unarchived d hd
  · simpa [successor, copyEntries, Function.comp_def] using h.ruleVersions
  · simpa [successor, copyEntries, Function.comp_def, List.filterMap_map] using h.priorities
  · intro e he
    obtain ⟨d, -, rfl⟩ := List.mem_map.mp he
    rfl

theorem kept_promote (h : v.Kept) (id actor : String) : (promote id actor v).Kept := by
  rw [promote_eq]
  exact ⟨h.precedence, h.unarchived, h.ruleVersions, h.priorities, h.ids⟩

theorem Reachable.kept (h : s.Reachable) : ∀ v ∈ s.versions, v.Kept := by
  refine h.induction (P := fun t => ∀ v ∈ t.versions, v.Kept) ?_ ?_
  · intro input first hfirst v hv
    obtain ⟨hfits, rfl⟩ := create_eq_ok_iff.mp hfirst
    obtain rfl := List.mem_singleton.mp hv
    exact ⟨hfits, by simp [firstVersion], List.nodup_nil, List.nodup_nil, by simp [firstVersion]⟩
  · intro t op a t' ht _ hperf
    exact hperf.forall_versions (fun latest createdBy hl => kept_successor hl createdBy)
      (fun v actor hv => hv.freeze actor) (fun v id actor hv => kept_promote hv id actor)
      (fun v e answer v' hv hedit => hedit.kept hv) ht

/-- **No two entries of a ruleset have the same id**, be they in one version or in two. -/
theorem Reachable.nodup_entryIds (h : s.Reachable) :
    (s.versions.flatMap fun v => v.entries.map Entry.id).Nodup := by
  have hkept := h.kept
  refine List.nodup_flatMap.mpr ⟨fun v hv => (hkept v hv).nodup_ids, ?_⟩
  refine h.numbered.pairwise_number_ne.imp_of_mem fun {v w} hv hw hne => ?_
  -- An id that two versions shared would name the numbers of both.
  intro id hidv hidw
  obtain ⟨d, hd, rfl⟩ := List.mem_map.mp hidv
  obtain ⟨e, he, heq⟩ := List.mem_map.mp hidw
  rw [(hkept v hv).ids d hd, (hkept w hw).ids e he, h.numbered.ids v hv, h.numbered.ids w hw] at heq
  exact hne (Version.entryIdOf_idOf_inj.mp heq).1.symm

/-- **What the check can report of a reachable ruleset** is what it can report of its
versions. -/
theorem Reachable.fault_cases (h : s.Reachable) {x : RuleError} (hfault : s.Fault x) :
    (x = .unacceptable .priorityRequired ∧
      ∃ v ∈ s.versions, v.mode = .sequential ∧ ∃ e ∈ v.entries, e.priority = none) ∨
    (x = .unacceptable .draftRuleVersion ∧
      ∃ v ∈ s.versions, v.status ≠ .draft ∧ ∃ e ∈ v.entries, e.ruleStatus = some .draft) := by
  cases hfault with
  | @foreign v hv hforeign => exact absurd (h.numbered.owners v hv) hforeign
  | severalActive hseveral => exact absurd h.activeCount_le_one (Nat.not_le.mpr hseveral)
  | @version v x hv hfault =>
    rcases (h.kept v hv).fault_cases hfault with ⟨rfl, hmissing⟩ | ⟨rfl, hdraft⟩
    · exact Or.inl ⟨rfl, v, hv, hmissing⟩
    · exact Or.inr ⟨rfl, v, hv, hdraft⟩

/-- **What the operations keep**, and what the check can still report: in each version of a
reachable ruleset rule versions and priorities are apart, no rule is archived, a precedence is
there where one is needed and the entries are named after the version and their rule versions;
no two entries of the ruleset have the same id; and an error of the check names a priority that
is missing in a sequential version, or a draft in a version that is none. -/
theorem Reachable.kept_and_fault (h : s.Reachable) :
    (∀ v ∈ s.versions, v.Kept) ∧
      (s.versions.flatMap fun v => v.entries.map Entry.id).Nodup ∧
      ∀ x, s.check = .error x →
        (x = .unacceptable .priorityRequired ∧
          ∃ v ∈ s.versions, v.mode = .sequential ∧ ∃ e ∈ v.entries, e.priority = none) ∨
        (x = .unacceptable .draftRuleVersion ∧
          ∃ v ∈ s.versions, v.status ≠ .draft ∧ ∃ e ∈ v.entries, e.ruleStatus = some .draft) :=
  ⟨h.kept, h.nodup_entryIds, fun _ hx => h.fault_cases (fault_of_check_eq_error hx)⟩

/-- A version is parallel for a while, and gets an entry without a priority meanwhile. -/
def modeSwitches : List Operation :=
  [.edit "rs:v1" (.addEntry ⟨"limit:1", "limit", .approved, false⟩ true (some 1)),
   .edit "rs:v1" (.updateSettings (some .parallel) (.set (.ofJson (.string "BLOCK")))),
   .edit "rs:v1" (.addEntry ⟨"limit", "limit", .draft, false⟩ true (some 1)),
   .edit "rs:v1" (.updateSettings (some .sequential) .keep), .newVersion "analyst"]

theorem fault_after_modeSwitches :
    (cardFraud.after modeSwitches).Reachable ∧
      (cardFraud.after modeSwitches).check = .error (.unacceptable .priorityRequired) ∧
      ∃ v ∈ (cardFraud.after modeSwitches).versions, v.mode = .sequential ∧
        ∃ e ∈ v.entries, e.priority = none := by
  have hreach : (cardFraud.after modeSwitches).Reachable := reachable_after_cardFraud (by decide)
  have hcheck : (cardFraud.after modeSwitches).check = .error (.unacceptable .priorityRequired) :=
    rfl
  refine ⟨hreach, hcheck, ?_⟩
  obtain ⟨-, -, hfault⟩ := hreach.kept_and_fault
  rcases hfault _ hcheck with ⟨-, hmissing⟩ | ⟨hdraft, -⟩
  · exact hmissing
  · cases hdraft

end Ruleset

end Rulebook
