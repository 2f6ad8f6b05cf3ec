import Rulebook.Proofs.Ruleset.Entries

/-!
# What a switch of the mode does to the check

The mode says what the entries of a version have to carry: in a sequential version each has a
priority of its own, in a parallel one priorities are neither given nor looked at. A change of
the settings compares the mode with the precedence and leaves it at that, so it can make a
version sequential whose entries cannot be run one after another. Here it is said exactly when;
adding and deleting entries does no such thing.

* `Rulebook.Version.Prioritised` – the entries can be run one after another;
* `Rulebook.Version.Edited.valid_iff` – when an edit keeps a version that the check accepts;
* `Rulebook.Version.SwitchesFit` – every switch to sequential finds such entries;
* `Rulebook.Version.check_settings` – what the check says after a change of the settings, and
  along a list of edits.
-/

namespace Rulebook

/-- Whether an edit changes an entry that stands in the version. -/
def VersionEdit.patches : VersionEdit → Bool
  | .patchEntry _ _ _ => true
  | _ => false

namespace Version

variable {v v' : Version} {e : VersionEdit} {answer : Option Entry} {mode : Mode}
  {precedence : Option Opaque}

/-! ### One edit -/

/-- **The entries can be run one after another**: all of them have priorities, and no two have
the same. -/
structure Prioritised (v : Version) : Prop where
  /-- All entries have priorities. -/
  given : ∀ e ∈ v.entries, e.priority ≠ none
  /-- No priority comes twice. -/
  distinct : (v.entries.filterMap Entry.priority).Nodup

theorem prioritised_iff :
    v.Prioritised ↔ (∀ e ∈ v.entries, e.priority ≠ none) ∧
      (v.entries.filterMap Entry.priority).Nodup :=
  ⟨fun h => ⟨h.given, h.distinct⟩, fun h => ⟨h.1, h.2⟩⟩

instance (v : Version) : Decidable v.Prioritised := decidable_of_iff' _ prioritised_iff

theorem Valid.prioritised_of_sequential (h : v.Valid) (hmode : v.mode = .sequential) :
    v.Prioritised :=
  ⟨h.prioritised hmode, h.priorities hmode⟩

/-- **With other settings** that fit together a version is accepted if its entries can be run
one after another, or need not be. -/
theorem valid_settings_iff (h : v.Valid)
    (hfits : mode = .parallel → hasPrecedence precedence = true) :
    ({ v with mode, precedence } : Version).Valid ↔ (mode = .sequential → v.Prioritised) := by
  constructor
  · intro hvalid hmode
    exact ⟨hvalid.prioritised hmode, hvalid.priorities hmode⟩
  · intro hprioritised
    exact ⟨hfits, h.unarchived, h.reviewed, h.ruleVersions,
      fun hmode => (hprioritised hmode).given, fun hmode => (hprioritised hmode).distinct⟩

/-- **A new entry** may come to the end of a version that the check accepts. -/
theorem Valid.added (h : v.Valid) {r : RuleVersion} {given priority : Option Int64}
    (hdraft : v.status = .draft) (hfresh : ∀ e ∈ v.entries, e.ruleVersionId ≠ r.id)
    (hgiven : v.newPriority given = .ok priority) (enabled : Bool) :
    ({ v with entries := v.entries ++ [v.entryFor r enabled priority] } : Version).Valid := by
  have hnew : r.id ∉ v.entries.map Entry.ruleVersionId := by
    intro hmem
    obtain ⟨e, he, heq⟩ := List.mem_map.mp hmem
    exact hfresh e he heq
  -- In a sequential version the entry has a priority, and one that no other entry has.
  have hpriority : v.mode = .sequential →
      ∃ p, priority = some p ∧ p ∉ v.entries.filterMap Entry.priority := by
    intro hmode
    rcases newPriority_eq_ok_iff.mp hgiven with ⟨hparallel, -⟩ | ⟨p, -, -, rfl, -⟩
    · exact absurd (hmode.symm.trans hparallel) (by decide)
    · exact ⟨p, rfl, notMem_priorities_of_newPriority hgiven⟩
  refine ⟨h.precedence, ?_, fun hfrozen => absurd hdraft hfrozen, ?_, fun hmode => ?_,
    fun hmode => ?_⟩
  · exact List.forall_mem_append.mpr ⟨h.unarchived, List.forall_mem_singleton.mpr rfl⟩
  · rw [List.map_append, List.map_singleton, ← List.concat_eq_append]
    exact h.ruleVersions.concat hnew
  · obtain ⟨p, rfl, -⟩ := hpriority hmode
    exact List.forall_mem_append.mpr
      ⟨h.prioritised hmode, List.forall_mem_singleton.mpr (Option.some_ne_none p)⟩
  · obtain ⟨p, rfl, hfree⟩ := hpriority hmode
    have hsome : (v.entryFor r enabled (some p)).priority = some p := rfl
    rw [List.filterMap_append, List.filterMap_cons_some hsome, List.filterMap_nil,
      ← List.concat_eq_append]
    exact (h.priorities hmode).concat hfree

/-- Entries may be taken out of a version that the check accepts. -/
theorem Valid.sublist (h : v.Valid) {es : List Entry} (hsub : es.Sublist v.entries) :
    ({ v with entries := es } : Version).Valid :=
  ⟨h.precedence, fun e he => h.unarchived e (hsub.subset he),
    fun hfrozen e he => h.reviewed hfrozen e (hsub.subset he), h.ruleVersions.sublist (hsub.map _),
    fun hmode e he => h.prioritised hmode e (hsub.subset he),
    fun hmode => (h.priorities hmode).sublist (hsub.filterMap _)⟩

/-- **When an edit keeps a version that the check accepts**, one that changes no entry: always,
but for a switch from parallel to sequential, which has to find entries that can be run one
after another. -/
theorem Edited.valid_iff (h : v.Edited e answer v') (hv : v.Valid) (he : e.patches = false) :
    v'.Valid ↔ (v.mode = .parallel → v'.mode = .sequential → v.Prioritised) := by
  cases h with
  | @settings mode precedence hdraft hfits =>
    rw [valid_settings_iff hv hfits]
    constructor
    · intro hswitch _ hmode
      exact hswitch hmode
    · intro hswitch hmode
      cases hbefore : v.mode with
      | sequential => exact hv.prioritised_of_sequential hbefore
      | parallel => exact hswitch hbefore hmode
  | @added r enabled given priority hdraft hfits hkept hfresh hgiven =>
    refine iff_of_true (hv.added hdraft hfresh hgiven enabled) fun hbefore hmode => ?_
    exact absurd (hbefore.symm.trans hmode) (by decide)
  | patched => cases he
  | @deleted id pre post entry hdraft hat =>
    refine iff_of_true (hv.sublist hat.sublist) fun hbefore hmode => ?_
    exact absurd (hbefore.symm.trans hmode) (by decide)

/-- The same of an edit that may fail, and then changes nothing. -/
theorem valid_run_perform_iff (hv : v.Valid) (he : e.patches = false) :
    (e.perform.run v).2.Valid ↔
      (v.mode = .parallel → (e.perform.run v).2.mode = .sequential → v.Prioritised) := by
  rcases e.edited_or_eq v with heq | ⟨answer, hedited⟩
  · rw [heq]
    refine iff_of_true hv fun hbefore hmode => ?_
    exact absurd (hbefore.symm.trans hmode) (by decide)
  · exact hedited.valid_iff hv he

/-- **What the check reports after a change of the settings** that it does not accept: a
priority that is missing, or one that comes twice. -/
theorem check_settings_eq_error (h : v.Valid)
    (hfits : mode = .parallel → hasPrecedence precedence = true) {x : RuleError}
    (hcheck : ({ v with mode, precedence } : Version).check = .error x) :
    (x = .unacceptable .priorityRequired ∧ ∃ e ∈ v.entries, e.priority = none) ∨
      (x = .conflict .priorityTaken ∧ ¬(v.entries.filterMap Entry.priority).Nodup) := by
  rcases (fault_of_check_eq_error hcheck).cases_of_nodup hfits h.unarchived h.ruleVersions with
    ⟨rfl, -, hmissing⟩ | ⟨rfl, -, htwice⟩ | ⟨-, hfrozen, e, he, hdraft⟩
  · exact Or.inl ⟨rfl, hmissing⟩
  · exact Or.inr ⟨rfl, htwice⟩
  · exact absurd hdraft (h.reviewed hfrozen e he)

/-! ### Lists of edits -/

/-- **The version that a list of edits leads to**, also if some of them fail. -/
def after (v : Version) (es : List VersionEdit) : Version :=
  es.foldl (fun v e => (e.perform.run v).2) v

/-- **Every switch from parallel to sequential** in a list of edits finds entries that can be
run one after another. -/
def SwitchesFit : Version → List VersionEdit → Prop
  | _, [] => True
  | v, e :: es =>
    (v.mode = .parallel → (e.perform.run v).2.mode = .sequential → v.Prioritised) ∧
      SwitchesFit (e.perform.run v).2 es

instance decidableSwitchesFit :
    (v : Version) → (es : List VersionEdit) → Decidable (v.SwitchesFit es)
  | _, [] => .isTrue trivial
  | v, e :: es =>
    have := decidableSwitchesFit (e.perform.run v).2 es
    inferInstanceAs (Decidable (_ ∧ _))

/-- **The check accepts the version all along a list of edits** that change no entry exactly if
every switch fits. -/
theorem valid_after_take_iff (hv : v.Valid) {es : List VersionEdit}
    (hes : ∀ e ∈ es, e.patches = false) :
    (∀ n, (v.after (es.take n)).Valid) ↔ v.SwitchesFit es := by
  induction es generalizing v with
  | nil =>
    refine iff_of_true (fun n => ?_) trivial
    rw [List.take_nil]
    exact hv
  | cons e es ih =>
    obtain ⟨he, hes⟩ := List.forall_mem_cons.mp hes
    have hstep := valid_run_perform_iff hv he
    constructor
    · intro hall
      have hnext : (e.perform.run v).2.Valid := hall 1
      exact ⟨hstep.mp hnext, (ih hnext hes).mp fun n => hall (n + 1)⟩
    · rintro ⟨hswitch, hrest⟩ n
      cases n with
      | zero => exact hv
      | succ n => exact (ih (hstep.mpr hswitch) hes).mpr hrest n

/-- **What the check says after a change of the settings**, if it accepted the version before:
it accepts the version exactly if this was no switch from parallel to sequential, or all entries
have priorities of their own; otherwise it reports a priority that is missing or that comes
twice. And along a list of changes of the settings with entries added and deleted in between, it
accepts the version all the time exactly if every such switch finds the entries so. -/
theorem check_settings (h : v.check = .ok ()) :
    (∀ mode precedence v', (updateSettings mode precedence).run v = (.ok (), v') →
      (v'.check = .ok () ↔ (v.mode = .parallel → mode = some .sequential → v.Prioritised)) ∧
      ∀ x, v'.check = .error x →
        (x = .unacceptable .priorityRequired ∧ ∃ e ∈ v.entries, e.priority = none) ∨
          (x = .conflict .priorityTaken ∧ ¬(v.entries.filterMap Entry.priority).Nodup)) ∧
    ∀ es : List VersionEdit, (∀ e ∈ es, e.patches = false) →
      ((∀ n, (v.after (es.take n)).check = .ok ()) ↔ v.SwitchesFit es) := by
  have hv := check_eq_ok_iff.mp h
  refine ⟨fun mode precedence v' hrun => ?_, fun es hes => ?_⟩
  · obtain ⟨hdraft, hfits, rfl⟩ := run_updateSettings_eq_ok_iff.mp hrun
    refine ⟨?_, fun x hx => check_settings_eq_error hv hfits hx⟩
    rw [check_eq_ok_iff, (Edited.settings hdraft hfits).valid_iff hv rfl]
    refine forall_congr' fun hbefore => ?_
    have hmode : mode.getD v.mode = .sequential ↔ mode = some .sequential := by
      cases mode with
      | none => simp [hbefore]
      | some m => simp
    exact imp_congr_left hmode
  · rw [← valid_after_take_iff hv hes]
    exact forall_congr' fun n => check_eq_ok_iff

/-- A parallel draft with one entry, which may have a priority. -/
def parallelDraft (priority : Option Int64) : Version :=
  { id := "rs:v1"
    rulesetId := "rs"
    number := 1
    status := .draft
    mode := .parallel
    precedence := some (.ofJson (.string "BLOCK"))
    createdBy := "analyst"
    approvedBy := none
    activatedBy := none
    entries := [⟨"rs:v1:limit:1", "limit", "limit:1", true, priority, some .approved, false⟩] }

/-- An entry comes to the draft and goes again before the draft is made sequential. -/
def passingEntry : List VersionEdit :=
  [.addEntry ⟨"limit", "limit", .draft, false⟩ true none, .deleteEntry "rs:v1:limit",
   .updateSettings (some .sequential) .keep]

theorem check_after_passingEntry :
    (parallelDraft (some 1)).check = .ok () ∧
      (∃ v', (updateSettings (some .sequential) .keep).run (parallelDraft (some 1)) = (.ok (), v') ∧
        v'.check = .ok ()) ∧
      ∀ n, ((parallelDraft (some 1)).after (passingEntry.take n)).check = .ok () := by
  have hcheck : (parallelDraft (some 1)).check = .ok () := rfl
  obtain ⟨hone, hall⟩ := check_settings hcheck
  refine ⟨hcheck, ⟨_, rfl, ?_⟩, (hall passingEntry (by decide)).mpr (by decide)⟩
  exact (hone (some .sequential) .keep _ rfl).1.mpr fun _ _ => by decide

/-- **A switch makes a version sequential whose entry has no priority**: the change of the
settings succeeds, and the check then rejects what it accepted before. -/
theorem priorityRequired_after_switch :
    (parallelDraft none).check = .ok () ∧
      ∃ v', (updateSettings (some .sequential) .keep).run (parallelDraft none) = (.ok (), v') ∧
        v'.check = .error (.unacceptable .priorityRequired) :=
  ⟨rfl, _, rfl, rfl⟩

end Version

end Rulebook
