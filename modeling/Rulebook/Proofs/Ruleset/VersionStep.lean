import Rulebook.Proofs.Ruleset.Atomic

/-!
# What an edit makes of a version

The edits of a version are written as checks followed by a change. Here they are read as a
relation, with one case for each edit that says when it succeeds, what it answers and which
version it leaves; no later proof opens an edit again.

* `Rulebook.Version.Edited` – the relation;
* `Rulebook.VersionEdit.run_perform_eq_ok_iff` – it is what the edits do when they succeed;
* `Rulebook.VersionEdit.atomic_perform` – an edit that fails changes nothing;
* `Rulebook.Version.Edited.id_eq` and its neighbours – what no edit touches.
-/

namespace Rulebook

/-! ### The checks -/

theorem Version.isDraft_iff {v : Version} : v.isDraft = true ↔ v.status = .draft := by
  simp [Version.isDraft]

theorem Version.requirePrecedence_eq_ok_iff {mode : Mode} {precedence : Option Opaque} {u : Unit} :
    requirePrecedence mode precedence = .ok u ↔
      (mode = .parallel → hasPrecedence precedence = true) := by
  unfold requirePrecedence
  split
  · next h =>
    have hnone : hasPrecedence precedence = false := by simpa using h.2
    simp [h.1, hnone]
  · next h => simpa using h

/-- A priority is free if the entries that have it all have the id that is let pass. -/
theorem Version.priorityFree_iff {v : Version} {p : Int64} {except : Option String} :
    v.priorityFree p except = true ↔ ∀ e ∈ v.entries, e.priority = some p → some e.id = except := by
  simp [priorityFree]

/-- **The priority of a new entry**: none in a parallel version; in a sequential one the given
priority, which no entry has yet. -/
theorem Version.newPriority_eq_ok_iff {v : Version} {given priority : Option Int64} :
    v.newPriority given = .ok priority ↔
      (v.mode = .parallel ∧ priority = none) ∨
        ∃ p, v.mode = .sequential ∧ given = some p ∧ priority = some p ∧
          ∀ e ∈ v.entries, e.priority ≠ some p := by
  unfold newPriority
  split
  · next hmode => simp [hmode, eq_comm]
  · next hmode => simp [hmode]
  · next p hmode =>
    have hfree : v.priorityFree p none = true ↔ ∀ e ∈ v.entries, e.priority ≠ some p := by
      simp [priorityFree_iff]
    by_cases h : v.priorityFree p none = true
    · have hnew := hfree.mp h
      simp only [h, hmode, if_true, Except.ok.injEq, Option.some.injEq]
      constructor
      · rintro rfl
        exact Or.inr ⟨p, trivial, rfl, rfl, hnew⟩
      · rintro (⟨hmode', -⟩ | ⟨q, -, rfl, rfl, -⟩)
        · cases hmode'
        · rfl
    · simp only [h, hmode, if_false, reduceCtorEq, Bool.false_eq_true, false_iff]
      rintro (⟨hmode', -⟩ | ⟨q, -, hq, -, hnew⟩)
      · cases hmode'
      · exact h (hfree.mpr (Option.some.inj hq ▸ hnew))

/-! ### The changes -/

/-- An entry, changed as far as it is asked for. -/
def Entry.patched (e : Entry) (enabled : Option Bool) (priority : Option Int64) : Entry :=
  { e with enabled := enabled.getD e.enabled, priority := priority.or e.priority }

theorem Version.run_patch (enabled : Option Bool) (priority : Option Int64) (e : Entry) :
    (patch enabled priority).run e =
      (.ok (e.patched enabled priority), e.patched enabled priority) := by
  cases enabled <;> cases priority <;> rfl

/-- **What an edit makes of a version**, if it succeeds: the answer, and the version it leaves. -/
inductive Version.Edited (v : Version) : VersionEdit → Option Entry → Version → Prop where
  /-- The mode and the precedence of a draft are changed, if the new ones fit together. -/
  | settings {mode : Option Mode} {precedence : Change Opaque} (draft : v.status = .draft)
      (fits : mode.getD v.mode = .parallel → hasPrecedence (precedence.apply v.precedence) = true) :
      Edited v (.updateSettings mode precedence) none
        { v with mode := mode.getD v.mode, precedence := precedence.apply v.precedence }
  /-- An entry comes to a draft, at the end, for a rule version that is not in it yet. -/
  | added {r : RuleVersion} {enabled : Bool} {given priority : Option Int64}
      (draft : v.status = .draft) (fits : v.mode = .parallel → hasPrecedence v.precedence = true)
      (kept : r.archived = false) (fresh : ∀ e ∈ v.entries, e.ruleVersionId ≠ r.id)
      (prioritised : v.newPriority given = .ok priority) :
      Edited v (.addEntry r enabled given) (some (v.entryFor r enabled priority))
        { v with entries := v.entries ++ [v.entryFor r enabled priority] }
  /-- The first entry with an id is changed; a new priority needs a sequential draft in which
  it is free. -/
  | patched {id : String} {enabled : Option Bool} {priority : Option Int64} {pre post : List Entry}
      {e : Entry} (draft : v.status = .draft)
      (free : ∀ p, priority = some p → v.mode = .sequential ∧ v.priorityFree p (some id) = true)
      (found : FirstAt (fun d : Entry => d.id == id) v.entries pre e post) :
      Edited v (.patchEntry id enabled priority) (some (e.patched enabled priority))
        { v with entries := pre ++ e.patched enabled priority :: post }
  /-- The first entry with an id goes. -/
  | deleted {id : String} {pre post : List Entry} {e : Entry} (draft : v.status = .draft)
      (found : FirstAt (fun d : Entry => d.id == id) v.entries pre e post) :
      Edited v (.deleteEntry id) (some e) { v with entries := pre ++ post }

namespace Version

variable {v v' : Version}

/-! ### When each edit succeeds -/

theorem run_updateSettings_eq_ok_iff {mode : Option Mode} {precedence : Change Opaque} {u : Unit} :
    (updateSettings mode precedence).run v = (.ok u, v') ↔
      v.status = .draft ∧
        (mode.getD v.mode = .parallel → hasPrecedence (precedence.apply v.precedence) = true) ∧
        v' = { v with mode := mode.getD v.mode, precedence := precedence.apply v.precedence } := by
  simp only [updateSettings, Edit.run_state_bind, Edit.run_require_bind_eq_ok_iff, isDraft_iff,
    Edit.run_lift_bind_eq_ok_iff, requirePrecedence_eq_ok_iff, Edit.run_modify, Prod.mk.injEq]
  constructor
  · rintro ⟨hdraft, _, hfits, -, rfl⟩
    exact ⟨hdraft, hfits, rfl⟩
  · rintro ⟨hdraft, hfits, rfl⟩
    exact ⟨hdraft, (), hfits, trivial, rfl⟩

theorem run_addEntry_eq_ok_iff {r : RuleVersion} {enabled : Bool} {given : Option Int64}
    {entry : Entry} :
    (addEntry r enabled given).run v = (.ok entry, v') ↔
      v.status = .draft ∧ (v.mode = .parallel → hasPrecedence v.precedence = true) ∧
        r.archived = false ∧ (∀ e ∈ v.entries, e.ruleVersionId ≠ r.id) ∧
        ∃ priority, v.newPriority given = .ok priority ∧ entry = v.entryFor r enabled priority ∧
          v' = { v with entries := v.entries ++ [v.entryFor r enabled priority] } := by
  have hmode : (v.mode != .parallel || hasPrecedence v.precedence) = true ↔
      (v.mode = .parallel → hasPrecedence v.precedence = true) := by
    cases v.mode <;> simp
  have hfresh : (!v.entries.any fun e => e.ruleVersionId == r.id) = true ↔
      ∀ e ∈ v.entries, e.ruleVersionId ≠ r.id := by
    simp
  simp only [addEntry, Edit.run_state_bind, Edit.run_require_bind_eq_ok_iff, isDraft_iff, hmode,
    hfresh, Edit.run_lift_bind_eq_ok_iff, Edit.run_modify_bind, Edit.run_pure, Prod.mk.injEq,
    Except.ok.injEq, Bool.not_eq_true']
  constructor
  · rintro ⟨hdraft, hfits, hkept, hnew, priority, hprio, rfl, rfl⟩
    exact ⟨hdraft, hfits, hkept, hnew, priority, hprio, rfl, rfl⟩
  · rintro ⟨hdraft, hfits, hkept, hnew, priority, hprio, rfl, rfl⟩
    exact ⟨hdraft, hfits, hkept, hnew, priority, hprio, rfl, rfl⟩

theorem run_patchEntry_eq_ok_iff {id : String} {enabled : Option Bool} {priority : Option Int64}
    {entry : Entry} :
    (patchEntry id enabled priority).run v = (.ok entry, v') ↔
      v.status = .draft ∧
        (∀ p, priority = some p → v.mode = .sequential ∧ v.priorityFree p (some id) = true) ∧
        ∃ pre e post, FirstAt (fun d : Entry => d.id == id) v.entries pre e post ∧
          entry = e.patched enabled priority ∧
          v' = { v with entries := pre ++ e.patched enabled priority :: post } := by
  have hentry : (onEntry id (patch enabled priority)).run v = (.ok entry, v') ↔
      ∃ pre e post, FirstAt (fun d : Entry => d.id == id) v.entries pre e post ∧
        entry = e.patched enabled priority ∧
          v' = { v with entries := pre ++ e.patched enabled priority :: post } := by
    rw [run_onEntry_eq_ok_iff]
    constructor
    · rintro ⟨pre, e, post, e', hat, hrun, rfl⟩
      obtain ⟨hentry, rfl⟩ := Prod.mk.inj ((run_patch enabled priority e).symm.trans hrun)
      exact ⟨pre, e, post, hat, (Except.ok.inj hentry).symm, rfl⟩
    · rintro ⟨pre, e, post, hat, rfl, rfl⟩
      exact ⟨pre, e, post, _, hat, run_patch enabled priority e, rfl⟩
  -- That there is an entry with the id is checked first, and again by the change itself.
  have hthere : (onEntry id (patch enabled priority)).run v = (.ok entry, v') →
      (v.entries.any fun e => e.id == id) = true := by
    rw [hentry]
    rintro ⟨pre, e, post, hat, -⟩
    exact hat.any_eq
  rw [← hentry]
  cases priority with
  | none =>
    simp only [patchEntry, Edit.run_state_bind, Edit.run_require_bind_eq_ok_iff, isDraft_iff]
    exact ⟨fun h => ⟨h.2.1, by simp, h.2.2⟩, fun h => ⟨hthere h.2.2, h.1, h.2.2⟩⟩
  | some p =>
    simp only [patchEntry, Edit.run_state_bind, Edit.run_require_bind_eq_ok_iff, isDraft_iff]
    constructor
    · rintro ⟨-, hdraft, hmode, hfree, hrun⟩
      refine ⟨hdraft, fun q hq => ?_, hrun⟩
      obtain rfl := Option.some.inj hq
      exact ⟨by simpa using hmode, hfree⟩
    · rintro ⟨hdraft, hfree, hrun⟩
      obtain ⟨hmode, hfree⟩ := hfree p rfl
      exact ⟨hthere hrun, hdraft, by simp [hmode], hfree, hrun⟩

theorem run_deleteEntry_eq_ok_iff {id : String} {entry : Entry} :
    (deleteEntry id).run v = (.ok entry, v') ↔
      v.status = .draft ∧
        ∃ pre post, FirstAt (fun d : Entry => d.id == id) v.entries pre entry post ∧
          v' = { v with entries := pre ++ post } := by
  simp only [deleteEntry, Edit.run_state_bind]
  rcases hfound : v.entries.find? fun e => e.id == id with _ | e
  · simp only [hfound, Edit.run_fail, Prod.mk.injEq, reduceCtorEq, false_and, false_iff]
    rintro ⟨-, pre, post, hat, -⟩
    rw [hat.find?_eq] at hfound
    cases hfound
  · simp only [hfound, Edit.run_require_bind_eq_ok_iff, isDraft_iff, Edit.run_modify_bind,
      Edit.run_pure, Prod.mk.injEq, Except.ok.injEq]
    constructor
    · rintro ⟨hdraft, rfl, rfl⟩
      obtain ⟨pre, post, hat⟩ := exists_firstAt_of_find? hfound
      exact ⟨hdraft, pre, post, hat, by rw [hat.eraseP_eq]⟩
    · rintro ⟨hdraft, pre, post, hat, rfl⟩
      obtain rfl := Option.some.inj (hfound.symm.trans hat.find?_eq)
      exact ⟨hdraft, rfl, by rw [hat.eraseP_eq]⟩

/-! ### None of them fails half done -/

theorem atomic_updateSettings (mode : Option Mode) (precedence : Change Opaque) :
    (updateSettings mode precedence).Atomic := by
  refine Edit.Atomic.state_bind fun v => Edit.Atomic.require_bind ?_ _ _
  refine Edit.Atomic.lift_bind (fun _ => ?_) _
  intro s x s' h
  simp at h

theorem atomic_addEntry (r : RuleVersion) (enabled : Bool) (given : Option Int64) :
    (addEntry r enabled given).Atomic := by
  refine Edit.Atomic.state_bind fun v => ?_
  refine Edit.Atomic.require_bind ?_ _ _
  refine Edit.Atomic.require_bind ?_ _ _
  refine Edit.Atomic.require_bind ?_ _ _
  refine Edit.Atomic.require_bind ?_ _ _
  exact Edit.Atomic.lift_bind (fun _ => Edit.atomic_modify_bind _ fun s => ⟨_, s, rfl⟩) _

theorem atomic_patchEntry (id : String) (enabled : Option Bool) (priority : Option Int64) :
    (patchEntry id enabled priority).Atomic := by
  have hpatch : (patch enabled priority).Atomic := by
    intro e x e' h
    simp [run_patch] at h
  refine Edit.Atomic.state_bind fun v => ?_
  refine Edit.Atomic.require_bind ?_ _ _
  refine Edit.Atomic.require_bind ?_ _ _
  cases priority with
  | none => exact atomic_onEntry hpatch
  | some p =>
    refine Edit.Atomic.require_bind ?_ _ _
    exact Edit.Atomic.require_bind (atomic_onEntry hpatch) _ _

theorem atomic_deleteEntry (id : String) : (deleteEntry id).Atomic := by
  refine Edit.Atomic.state_bind fun v => ?_
  split
  · exact Edit.atomic_fail _
  · refine Edit.Atomic.require_bind ?_ _ _
    exact Edit.atomic_modify_bind _ fun s => ⟨_, s, rfl⟩

end Version

namespace VersionEdit

variable {v v' : Version} {e : VersionEdit} {answer : Option Entry}

/-- **An edit succeeds exactly when the relation says so**, with the answer and the version
that the relation gives. -/
theorem run_perform_eq_ok_iff :
    e.perform.run v = (.ok answer, v') ↔ v.Edited e answer v' := by
  constructor
  · intro h
    cases e with
    | updateSettings mode precedence =>
      obtain ⟨u, hrun, rfl⟩ := Edit.run_map_eq_ok_iff.mp h
      obtain ⟨hdraft, hfits, rfl⟩ := Version.run_updateSettings_eq_ok_iff.mp hrun
      exact .settings hdraft hfits
    | addEntry r enabled given =>
      obtain ⟨entry, hrun, rfl⟩ := Edit.run_map_eq_ok_iff.mp h
      obtain ⟨hdraft, hfits, hkept, hnew, priority, hprio, rfl, rfl⟩ :=
        Version.run_addEntry_eq_ok_iff.mp hrun
      exact .added hdraft hfits hkept hnew hprio
    | patchEntry id enabled priority =>
      obtain ⟨entry, hrun, rfl⟩ := Edit.run_map_eq_ok_iff.mp h
      obtain ⟨hdraft, hfree, pre, e, post, hat, rfl, rfl⟩ :=
        Version.run_patchEntry_eq_ok_iff.mp hrun
      exact .patched hdraft hfree hat
    | deleteEntry id =>
      obtain ⟨entry, hrun, rfl⟩ := Edit.run_map_eq_ok_iff.mp h
      obtain ⟨hdraft, pre, post, hat, rfl⟩ := Version.run_deleteEntry_eq_ok_iff.mp hrun
      exact .deleted hdraft hat
  · intro h
    cases h with
    | settings hdraft hfits =>
      exact Edit.run_map_eq_ok_iff.mpr
        ⟨(), Version.run_updateSettings_eq_ok_iff.mpr ⟨hdraft, hfits, rfl⟩, rfl⟩
    | added hdraft hfits hkept hnew hprio =>
      exact Edit.run_map_eq_ok_iff.mpr ⟨_, Version.run_addEntry_eq_ok_iff.mpr
        ⟨hdraft, hfits, hkept, hnew, _, hprio, rfl, rfl⟩, rfl⟩
    | patched hdraft hfree hat =>
      exact Edit.run_map_eq_ok_iff.mpr ⟨_, Version.run_patchEntry_eq_ok_iff.mpr
        ⟨hdraft, hfree, _, _, _, hat, rfl, rfl⟩, rfl⟩
    | deleted hdraft hat =>
      exact Edit.run_map_eq_ok_iff.mpr ⟨_, Version.run_deleteEntry_eq_ok_iff.mpr
        ⟨hdraft, _, _, hat, rfl⟩, rfl⟩

/-- **An edit that fails changes nothing.** -/
theorem atomic_perform (e : VersionEdit) : e.perform.Atomic := by
  cases e with
  | updateSettings mode precedence =>
    exact (Version.atomic_updateSettings mode precedence).map fun _ => none
  | addEntry r enabled given => exact (Version.atomic_addEntry r enabled given).map some
  | patchEntry id enabled priority =>
    exact (Version.atomic_patchEntry id enabled priority).map some
  | deleteEntry id => exact (Version.atomic_deleteEntry id).map some

/-- **An edit** stays where it is or is a step of the relation. -/
theorem edited_or_eq (e : VersionEdit) (v : Version) :
    (e.perform.run v).2 = v ∨ ∃ answer, v.Edited e answer (e.perform.run v).2 := by
  rcases hrun : e.perform.run v with ⟨x | answer, v'⟩
  · exact Or.inl (atomic_perform e v x v' hrun)
  · exact Or.inr ⟨answer, run_perform_eq_ok_iff.mp hrun⟩

end VersionEdit

/-! ### What no edit touches -/

namespace Version.Edited

variable {v v' : Version} {e : VersionEdit} {answer : Option Entry}

/-- Only a draft is edited. -/
theorem draft (h : v.Edited e answer v') : v.status = .draft := by
  cases h <;> assumption

theorem status_eq (h : v.Edited e answer v') : v'.status = v.status := by
  cases h <;> rfl

theorem id_eq (h : v.Edited e answer v') : v'.id = v.id := by
  cases h <;> rfl

theorem rulesetId_eq (h : v.Edited e answer v') : v'.rulesetId = v.rulesetId := by
  cases h <;> rfl

theorem number_eq (h : v.Edited e answer v') : v'.number = v.number := by
  cases h <;> rfl

end Version.Edited

end Rulebook
