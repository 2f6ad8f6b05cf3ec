import Rulebook.Proofs.Ruleset.Frame

/-!
# What an operation does to each version

Where ids tell the versions apart, an operation is answered by the one version that it is addressed
to, and all that it does to the others is what an activation does, to which the active one gives
way. So an operation is an edit of one version and a map of all of them, and the ruleset itself says
nothing more. A version that gives way was no draft before and is none afterwards, so whatever else
is asked of it – an edit, an approval – is refused with the same error in both cases.

A new version comes last, and is made from the settings and entries of the latest one alone.

* `Rulebook.VersionEdit.run_perform_of_frozen` – an edit of a version that is no draft;
* `Rulebook.Operation.own` – what an operation does to the version that it is addressed to, and
  `Rulebook.Operation.run_own_yielded` – to that version when it has given way;
* `Rulebook.Operation.effect` – what an operation does to each version of the ruleset, and
  `Rulebook.Operation.run_perform_eq` – **that this is all it does**;
* `Rulebook.Ruleset.run_newVersion_eq`, `Rulebook.Ruleset.started_congr` – what a new version is
  made from.
-/

namespace Rulebook

/-! ### Frozen versions -/

/-- The error of an edit of a version that is no draft. An entry that is to be changed or to go is
looked up first. -/
def VersionEdit.refusal (entries : List Entry) : VersionEdit → RuleError
  | .updateSettings _ _ => .conflict .settingsFrozen
  | .addEntry _ _ _ => .conflict .entriesFrozen
  | .patchEntry id _ _ =>
    if entries.any fun d => d.id == id then .conflict .entryFrozen else .notFound .entry
  | .deleteEntry id =>
    if entries.any fun d => d.id == id then .conflict .deletionFrozen else .notFound .entry

/-- **An edit of a version that is no draft** is refused. -/
theorem VersionEdit.run_perform_of_frozen {v : Version} (h : v.status ≠ .draft) (e : VersionEdit) :
    e.perform.run v = (.error (e.refusal v.entries), v) := by
  have hfrozen : v.isDraft = false := by simpa [Version.isDraft] using h
  cases e with
  | updateSettings mode precedence =>
    have hrun : (Version.updateSettings mode precedence).run v =
        (.error (.conflict .settingsFrozen), v) := by
      rw [Version.updateSettings, Edit.run_state_bind, Edit.run_require_bind, hfrozen]
      rfl
    rw [perform, Edit.run_bind, hrun]
    rfl
  | addEntry r enabled given =>
    have hrun : (Version.addEntry r enabled given).run v =
        (.error (.conflict .entriesFrozen), v) := by
      rw [Version.addEntry, Edit.run_state_bind, Edit.run_require_bind, hfrozen]
      rfl
    rw [perform, Edit.run_map, hrun]
    rfl
  | patchEntry id enabled priority =>
    have hrun : (Version.patchEntry id enabled priority).run v =
        (.error ((patchEntry id enabled priority).refusal v.entries), v) := by
      rw [Version.patchEntry, Edit.run_state_bind, Edit.run_require_bind, Edit.run_require_bind,
        hfrozen, refusal]
      split <;> rfl
    rw [perform, Edit.run_map, hrun]
  | deleteEntry id =>
    have hrun : (Version.deleteEntry id).run v =
        (.error ((deleteEntry id).refusal v.entries), v) := by
      rw [Version.deleteEntry, Edit.run_state_bind, refusal, ← List.isSome_find?]
      cases v.entries.find? fun d => d.id == id with
      | none => rfl
      | some entry =>
        rw [Edit.run_require_bind, hfrozen]
        rfl
    rw [perform, Edit.run_map, hrun]

/-! ### What is done to the version that is addressed -/

namespace Version

variable {v v' : Version} {owner : Option String} {actor : String}

/-- Freezes a version, if it is a draft. -/
def approve (actor : String) : Edit Version Version := do
  let v ← Edit.state
  Edit.require v.isDraft (.conflict .approvedAlready)
  Edit.modify fun v => v.freeze actor
  Edit.state

/-- Makes a version active, if it is approved and belongs to the ruleset that is given, if one
is. -/
def activate (owner : Option String) (actor : String) : Edit Version Version := do
  let v ← Edit.state
  Edit.require (owner.all fun o => v.rulesetId == o) (.unacceptable .foreignVersion)
  Edit.require (v.status == .approved) (.conflict .notApproved)
  Edit.modify fun v => v.activated actor
  Edit.state

theorem atomic_approve (actor : String) : (approve actor).Atomic := by
  refine Edit.Atomic.state_bind fun v => ?_
  refine Edit.Atomic.require_bind ?_ _ _
  exact Edit.atomic_modify_bind _ fun v => ⟨v, v, rfl⟩

theorem atomic_activate (owner : Option String) (actor : String) :
    (activate owner actor).Atomic := by
  refine Edit.Atomic.state_bind fun v => ?_
  refine Edit.Atomic.require_bind ?_ _ _
  refine Edit.Atomic.require_bind ?_ _ _
  exact Edit.atomic_modify_bind _ fun v => ⟨v, v, rfl⟩

theorem run_approve_eq_ok {w : Version} (h : (approve actor).run v = (.ok w, v')) :
    v.status = .draft ∧ w = v.freeze actor ∧ v' = v.freeze actor := by
  rw [approve, Edit.run_state_bind, Edit.run_require_bind_eq_ok_iff, isDraft_iff] at h
  obtain ⟨hdraft, hrun⟩ := h
  obtain ⟨hw, rfl⟩ := Prod.mk.inj hrun
  exact ⟨hdraft, (Except.ok.inj hw).symm, rfl⟩

theorem run_activate_eq_ok {w : Version} (h : (activate owner actor).run v = (.ok w, v')) :
    w = v.activated actor ∧ v' = v.activated actor := by
  rw [activate, Edit.run_state_bind, Edit.run_require_bind_eq_ok_iff,
    Edit.run_require_bind_eq_ok_iff] at h
  obtain ⟨hw, rfl⟩ := Prod.mk.inj h.2.2
  exact ⟨(Except.ok.inj hw).symm, rfl⟩

/-- Only an activation makes a version active that was not. -/
theorem Became.status_ne_active {op : Operation} (h : v.Became op v')
    (hop : op.activates = false) (hv : v.status ≠ .active) : v'.status ≠ .active := by
  cases h with
  | same => exact hv
  | frozen => simp [Version.freeze]
  | edited hedit => rwa [hedit.status_eq]
  | activated | yielded =>
    rw [Operation.activates_activation] at hop
    cases hop

end Version

namespace Operation

variable {s : Ruleset} {op : Operation} {v v' w : Version} {a : Answer}

/-- **What an operation does to the version that it is addressed to**; one that is addressed to
none finds none. -/
def own : Operation → Edit Version Answer
  | .newVersion _ => Edit.fail (.notFound .version)
  | .approve _ actor => .version <$> Version.approve actor
  | .activate _ actor => .version <$> Version.activate none actor
  | .rollback rulesetId _ actor => .version <$> Version.activate (some rulesetId) actor
  | .edit _ e => Answer.ofEdit <$> e.perform

theorem own_activation (owner : Option String) (id actor : String) :
    (activation owner id actor).own = .version <$> Version.activate owner actor := by
  cases owner <;> rfl

theorem atomic_own (op : Operation) : op.own.Atomic := by
  cases op with
  | newVersion => exact Edit.atomic_fail _
  | approve id actor => exact (Version.atomic_approve actor).map _
  | activate id actor => exact (Version.atomic_activate none actor).map _
  | rollback rulesetId id actor => exact (Version.atomic_activate (some rulesetId) actor).map _
  | edit id e => exact e.atomic_perform.map _

/-- **What an operation makes of the version that it is addressed to** is what may become of it. -/
theorem became_of_run_own (htarget : op.target? = some v.id) (h : op.own.run v = (.ok a, v')) :
    v.Became op v' := by
  cases op with
  | newVersion => cases htarget
  | approve id actor =>
    obtain rfl := Option.some.inj htarget
    obtain ⟨w, hrun, -⟩ := Edit.run_map_eq_ok_iff.mp h
    obtain ⟨hdraft, -, rfl⟩ := Version.run_approve_eq_ok hrun
    exact .frozen hdraft
  | activate id actor =>
    obtain rfl := Option.some.inj htarget
    obtain ⟨w, hrun, -⟩ := Edit.run_map_eq_ok_iff.mp h
    obtain ⟨-, rfl⟩ := Version.run_activate_eq_ok hrun
    exact @Version.Became.activated v none actor
  | rollback rulesetId id actor =>
    obtain rfl := Option.some.inj htarget
    obtain ⟨w, hrun, -⟩ := Edit.run_map_eq_ok_iff.mp h
    obtain ⟨-, rfl⟩ := Version.run_activate_eq_ok hrun
    exact @Version.Became.activated v (some rulesetId) actor
  | edit id e =>
    obtain rfl := Option.some.inj htarget
    obtain ⟨answer, hrun, -⟩ := Edit.run_map_eq_ok_iff.mp h
    exact .edited (VersionEdit.run_perform_eq_ok_iff.mp hrun)

/-- It is left as it is, or it becomes what may become of it. -/
theorem eq_or_became_own (htarget : op.target? = some v.id) :
    (op.own.run v).2 = v ∨ v.Became op (op.own.run v).2 := by
  rcases hrun : op.own.run v with ⟨x | a, v'⟩
  · exact Or.inl (op.atomic_own v x v' hrun)
  · exact Or.inr (became_of_run_own htarget hrun)

theorem own_label (htarget : op.target? = some v.id) : (op.own.run v).2.label = v.label := by
  rcases eq_or_became_own htarget with heq | hbecame
  · rw [heq]
  · exact hbecame.preserved.label

/-- What an operation that is no activation answers to a version that is no draft is an error,
which depends on the entries only. -/
theorem exists_run_own_of_frozen (hop : op.activates = false) (entries : List Entry) :
    ∃ x, ∀ v : Version, v.status ≠ .draft → v.entries = entries →
      op.own.run v = (.error x, v) := by
  cases op with
  | newVersion => exact ⟨_, fun v _ _ => rfl⟩
  | approve id actor =>
    refine ⟨.conflict .approvedAlready, fun v hfrozen _ => ?_⟩
    have hnot : v.isDraft = false := by simpa [Version.isDraft] using hfrozen
    rw [own, Edit.run_map, Version.approve, Edit.run_state_bind, Edit.run_require_bind, hnot]
    rfl
  | activate | rollback => cases hop
  | edit id e =>
    refine ⟨e.refusal entries, fun v hfrozen hentries => ?_⟩
    rw [own, Edit.run_map, VersionEdit.run_perform_of_frozen hfrozen, hentries]

/-- **Of a version that has given way** the same comes as of one that has not. -/
theorem run_own_yielded (hop : op.activates = false) (htarget : op.target? = some v.id) :
    op.own.run v.yielded = ((op.own.run v).1, (op.own.run v).2.yielded) := by
  by_cases hactive : v.status = .active
  · obtain ⟨x, hrefused⟩ := exists_run_own_of_frozen hop v.entries
    rw [hrefused v (by simp [hactive]) rfl, Version.yielded_of_active hactive]
    exact hrefused _ (by simp) rfl
  · -- Neither the version nor what becomes of it is active, so that both stay as they are.
    have hafter : (op.own.run v).2.status ≠ .active := by
      rcases eq_or_became_own htarget with heq | hbecame
      · rwa [heq]
      · exact hbecame.status_ne_active hop hactive
    rw [Version.yielded_of_ne_active hactive, Version.yielded_of_ne_active hafter]

/-! ### What is done to all versions -/

/-- **What an operation addressed to `v` makes of a version** `w` of the ruleset. -/
def effect (op : Operation) (v w : Version) : Version :=
  if w.id = v.id then (op.own.run w).2
  else if op.activates && (op.own.run v).1.isOk then w.yielded else w

theorem effect_of_id_eq (h : w.id = v.id) : op.effect v w = (op.own.run w).2 := if_pos h

/-- An operation that is no activation leaves all others alone. -/
theorem effect_of_passive (hop : op.activates = false) (h : w.id ≠ v.id) : op.effect v w = w := by
  rw [effect, if_neg h, hop, Bool.false_and, if_neg Bool.false_ne_true]

/-- Every operation leaves all other drafts alone. -/
theorem effect_of_draft (hdraft : w.status = .draft) (h : w.id ≠ v.id) : op.effect v w = w := by
  rw [effect, if_neg h, Version.yielded_of_ne_active (by simp [hdraft]), ite_self]

/-- To an operation the others give way, all or none of them. -/
theorem effect_eq_or_yielded (op : Operation) (v : Version) :
    (∀ w : Version, w.id ≠ v.id → op.effect v w = w) ∨
      ∀ w : Version, w.id ≠ v.id → op.effect v w = w.yielded := by
  by_cases h : (op.activates && (op.own.run v).1.isOk) = true
  · exact Or.inr fun w hw => by rw [effect, if_neg hw, if_pos h]
  · exact Or.inl fun w hw => by rw [effect, if_neg hw, if_neg h]

theorem effect_label (htarget : op.target? = some v.id) (w : Version) :
    (op.effect v w).label = w.label := by
  by_cases h : w.id = v.id
  · rw [effect_of_id_eq h, own_label (h ▸ htarget)]
  · rcases effect_eq_or_yielded op v with hsame | hyielded
    · rw [hsame w h]
    · rw [hyielded w h, w.preserved_yielded.label]

theorem effect_id (htarget : op.target? = some v.id) (w : Version) :
    (op.effect v w).id = w.id := (Version.label_eq_iff.mp (effect_label htarget w)).1

end Operation

namespace Ruleset

variable {s : Ruleset} {v : Version} {α β : Type}

/-- An edit of the version with an id answers and does what it does to that version. -/
theorem run_map_onVersion (hids : (s.versions.map Version.id).Nodup) (hv : v ∈ s.versions)
    (f : α → β) (e : Edit Version α) :
    (f <$> onVersion v.id e).run s = (((f <$> e).run v).1,
      s.mapVersions fun w => if w.id = v.id then ((f <$> e).run w).2 else w) := by
  obtain ⟨pre, post, hat, hothers⟩ := exists_firstAt_of_nodup hids hv
  have hrun : (onVersion v.id e).run s =
      ((e.run v).1, { s with versions := pre ++ (e.run v).2 :: post }) := by
    rw [onVersion_eq_within]
    exact Edit.run_within_of_firstAt hat
  have hkeep : ∀ ws : List Version, (∀ w ∈ ws, w.id ≠ v.id) →
      ws.map (fun w => if w.id = v.id then ((f <$> e).run w).2 else w) = ws := by
    intro ws hws
    rw [List.map_congr_left fun w hw => if_neg (hws w hw), List.map_id']
  have hversions : s.versions.map (fun w => if w.id = v.id then ((f <$> e).run w).2 else w) =
      pre ++ ((f <$> e).run v).2 :: post := by
    rw [hat.eq, List.map_append, List.map_cons, if_pos rfl,
      hkeep pre fun w hw => hothers w (List.mem_append_left _ hw),
      hkeep post fun w hw => hothers w (List.mem_append_right _ hw)]
  rw [mapVersions, hversions, Edit.run_map, Edit.run_map, hrun]
  rcases e.run v with ⟨x | a, v'⟩ <;> rfl

/-- An activation answers what it makes of the version it is addressed to, and goes over all
versions if it succeeds. -/
theorem run_activateFor_eq {owner : Option String} {id actor : String}
    (hfound : s.version? id = some v) :
    (activateFor owner id actor).run s = (((Version.activate owner actor).run v).1,
      if ((Version.activate owner actor).run v).1.isOk then s.mapVersions (promote id actor)
      else s) := by
  have hid : v.id = id := by simpa using List.find?_some hfound
  have hagain : (s.mapVersions (promote id actor)).version id = .ok (v.activated actor) := by
    rw [version_eq_ok_iff, version?_mapVersions_promote hfound, promote_of_eq hid]
    rfl
  simp only [activateFor, Version.activate, Edit.run_state_bind, version_eq_ok_iff.mpr hfound,
    Edit.run_lift_ok_bind, Edit.run_require_bind]
  split
  · split
    · rw [Edit.run_modify_bind, Edit.run_state_bind, Edit.run_lift]
      exact Prod.ext hagain rfl
    · rfl
  · rfl

end Ruleset

namespace Operation

variable {s : Ruleset} {op : Operation} {v : Version} {owner : Option String} {actor : String}

/-- What an activation does to the versions: those with the id become active and the others give
way, if it succeeds. -/
theorem effect_activation (hsame : ∀ w ∈ s.versions, w.id = v.id → w = v) {w : Version}
    (hw : w ∈ s.versions) : (activation owner v.id actor).effect v w =
      if ((Version.activate owner actor).run v).1.isOk then Ruleset.promote v.id actor w
      else w := by
  rw [effect, own_activation, activates_activation, Bool.true_and, Edit.run_map, Edit.run_map,
    Version.promote_eq_ite]
  split
  · next hid =>
    obtain rfl := hsame w hw hid
    rcases hrun : (Version.activate owner actor).run w with ⟨x | u, v'⟩
    · exact Version.atomic_activate owner actor w x v' hrun
    · exact (Version.run_activate_eq_ok hrun).2
  · rcases (Version.activate owner actor).run v with ⟨x | u, v'⟩ <;> rfl

theorem run_perform_activation_eq (hids : (s.versions.map Version.id).Nodup)
    (hv : v ∈ s.versions) : (activation owner v.id actor).perform.run s =
      (((activation owner v.id actor).own.run v).1,
        s.mapVersions ((activation owner v.id actor).effect v)) := by
  have hfound := Ruleset.version?_eq_some_of_nodup hids hv
  have hsame : ∀ w ∈ s.versions, w.id = v.id → w = v := fun w hw hid =>
    List.inj_on_of_nodup_map hids hw hv hid
  rw [perform_activation, own_activation, Edit.run_map, Edit.run_map,
    Ruleset.run_activateFor_eq hfound,
    Ruleset.mapVersions_congr fun w hw => effect_activation hsame hw]
  rcases (Version.activate owner actor).run v with ⟨x | u, v'⟩
  · refine Prod.ext rfl ?_
    exact (congrArg (fun vs => { s with versions := vs }) (List.map_id' s.versions)).symm
  · rfl

/-- **An operation is answered by the version that it is addressed to**, and what it does to the
ruleset it does to each version by itself. -/
theorem run_perform_eq (hids : (s.versions.map Version.id).Nodup) (hv : v ∈ s.versions)
    (htarget : op.target? = some v.id) :
    op.perform.run s = ((op.own.run v).1, s.mapVersions (op.effect v)) := by
  have hpassive : op.activates = false →
      op.effect v = fun w => if w.id = v.id then (op.own.run w).2 else w := by
    intro hop
    funext w
    rw [effect, hop, Bool.false_and, if_neg Bool.false_ne_true]
  cases op with
  | newVersion => cases htarget
  | approve id actor =>
    obtain rfl := Option.some.inj htarget
    rw [hpassive rfl]
    exact Ruleset.run_map_onVersion hids hv Answer.version (Version.approve actor)
  | activate id actor =>
    obtain rfl := Option.some.inj htarget
    exact @run_perform_activation_eq s v none actor hids hv
  | rollback rulesetId id actor =>
    obtain rfl := Option.some.inj htarget
    exact @run_perform_activation_eq s v (some rulesetId) actor hids hv
  | edit id e =>
    obtain rfl := Option.some.inj htarget
    rw [hpassive rfl, perform_edit]
    exact Ruleset.run_map_onVersion hids hv Answer.ofEdit e.perform

end Operation

/-! ### Starting a version -/

/-- What a new version is made from, of the latest one. -/
def Version.pattern (v : Version) : UInt32 × Mode × Option Opaque × List Entry :=
  (v.number, v.mode, v.precedence, v.entries)

namespace Ruleset

variable {s t : Ruleset} {v : Version} {createdBy : String}

/-- What starting a version answers: the successor of the latest one, if its settings fit
together. -/
def started (s : Ruleset) (createdBy : String) : Except RuleError Version :=
  match s.latest? with
  | none => .error (.notFound .latestVersion)
  | some latest =>
    (Version.requirePrecedence latest.mode latest.precedence).map fun _ =>
      s.successor latest createdBy

/-- A ruleset with more versions at the end. -/
def addVersions (s : Ruleset) (vs : List Version) : Ruleset :=
  { s with versions := s.versions ++ vs }

/-- **Starting a version** adds what it answers, and does nothing else. -/
theorem run_newVersion_eq (s : Ruleset) (createdBy : String) :
    (newVersion createdBy).run s =
      (s.started createdBy, s.addVersions (s.started createdBy).toOption.toList) := by
  have hnone : s = s.addVersions [] := by rw [addVersions, List.append_nil]
  rw [newVersion, Edit.run_state_bind, started]
  cases s.latest? with
  | none => exact Prod.ext rfl hnone
  | some latest =>
    dsimp only
    rw [Version.start]
    cases Version.requirePrecedence latest.mode latest.precedence with
    | error x => exact Prod.ext rfl hnone
    | ok u => rfl

/-- Only what it is made from matters to a new version. -/
theorem started_congr (hid : t.id = s.id)
    (h : t.latest?.map Version.pattern = s.latest?.map Version.pattern) (createdBy : String) :
    t.started createdBy = s.started createdBy := by
  unfold started
  rcases ht : t.latest? with _ | l <;> rcases hs : s.latest? with _ | l'
  · rfl
  · simp [ht, hs] at h
  · simp [ht, hs] at h
  · rw [ht, hs, Option.map_some, Option.map_some, Option.some.injEq] at h
    simp only [Version.pattern, Prod.mk.injEq] at h
    obtain ⟨hnumber, hmode, hprecedence, hentries⟩ := h
    simp only [successor, hid, hnumber, hmode, hprecedence, hentries]

theorem mem_started (h : v ∈ (s.started createdBy).toOption.toList) :
    ∃ latest, s.latest? = some latest ∧ v = s.successor latest createdBy := by
  unfold started at h
  rcases hlatest : s.latest? with _ | latest
  · simp [hlatest, Except.toOption] at h
  · rw [hlatest] at h
    dsimp only at h
    cases hfits : Version.requirePrecedence latest.mode latest.precedence with
    | error x => simp [hfits, Except.map, Except.toOption] at h
    | ok u => exact ⟨latest, rfl, by simpa [hfits, Except.map, Except.toOption] using h⟩

end Ruleset

end Rulebook
