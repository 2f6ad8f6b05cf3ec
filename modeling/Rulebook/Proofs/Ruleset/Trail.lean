import Rulebook.Proofs.Ruleset.Frame

/-!
# Who approved and who activated a version

A version carries two marks, one of who approved it and one of who activated it. They are set by
different operations, and an activation clears one of them on a version that it was not addressed
to. Here the marks are read off the history instead: the operations that succeeded, and nothing
else, say what they are.

* `Rulebook.Ruleset.approvers` – who approved a version, in the history of a ruleset;
* `Rulebook.Ruleset.activations` – which versions were activated in it, and by whom;
* `Rulebook.Ruleset.Trail` – the marks of all versions are those that the history leaves, with
  one lemma for what a step and one for what a history makes of it;
* `Rulebook.Ruleset.trail_after_create` – the marks in the histories of a new ruleset.
-/

namespace Rulebook

variable {s s' : Ruleset} {op : Operation} {a : Answer} {id actor : String} {v : Version}

/-! ### What the history says -/

namespace Operation

/-- Who approves the version with an id by this operation, if it is an approval of it. -/
def approver? (id : String) : Operation → Option String
  | .approve id' actor => if id' = id then some actor else none
  | _ => none

/-- The version that is activated by this operation, and who does it, if it is an activation. -/
def activation? : Operation → Option (String × String)
  | .activate id actor | .rollback _ id actor => some (id, actor)
  | _ => none

@[simp] theorem activation?_activation (owner : Option String) (id actor : String) :
    (activation owner id actor).activation? = some (id, actor) := by
  cases owner <;> rfl

@[simp] theorem approver?_activation (owner : Option String) (id actor id' : String) :
    (activation owner id actor).approver? id' = none := by
  cases owner <;> rfl

end Operation

namespace Ruleset

/-- **Who approved the version with an id**, in the order of a history; only approvals that
succeeded count. -/
def approvers (s : Ruleset) (ops : List Operation) (id : String) : List String :=
  (s.succeeding ops).filterMap (Operation.approver? id)

/-- **Which versions were activated and by whom**, in the order of a history; only activations
that succeeded count. -/
def activations (s : Ruleset) (ops : List Operation) : List (String × String) :=
  (s.succeeding ops).filterMap Operation.activation?

end Ruleset

/-! ### The marks of a version -/

/-- **The marks go with the status**: who approved a version is known unless it is a draft, and
who activated it while it is active. -/
structure Version.Marked (v : Version) : Prop where
  /-- Who approved it. -/
  approved : v.approvedBy.isSome ↔ v.status ≠ .draft
  /-- Who activated it. -/
  activated : v.activatedBy.isSome ↔ v.status = .active

namespace Version

/-- Nobody has activated what is not active. -/
theorem Marked.activatedBy_eq_none (h : v.Marked) (hpassive : v.status ≠ .active) :
    v.activatedBy = none := by
  have hnot : ¬v.activatedBy.isSome := fun hsome => hpassive (h.activated.mp hsome)
  simpa using hnot

theorem Marked.freeze (h : v.Marked) (hdraft : v.status = .draft) (actor : String) :
    (v.freeze actor).Marked := by
  have hnone : v.activatedBy = none := h.activatedBy_eq_none (by simp [hdraft])
  exact ⟨by simp [Version.freeze], by simp [Version.freeze, hnone]⟩

theorem Marked.activate (h : v.Marked) (hfrozen : v.status ≠ .draft) (actor : String) :
    (v.activated actor).Marked := by
  have happroved : v.approvedBy.isSome := h.approved.mpr hfrozen
  exact ⟨by simp [Version.activated, happroved], by simp [Version.activated]⟩

theorem Marked.yielded (h : v.Marked) : v.yielded.Marked := by
  unfold Version.yielded
  split
  · next hactive =>
    have happroved : v.approvedBy.isSome := h.approved.mpr (by rw [hactive]; simp)
    exact ⟨by simp [happroved], by simp⟩
  · exact h

/-- An edit of a version touches neither mark. -/
theorem Edited.marks_eq {v' : Version} {e : VersionEdit} {answer : Option Entry}
    (h : v.Edited e answer v') :
    v'.approvedBy = v.approvedBy ∧ v'.activatedBy = v.activatedBy := by
  cases h <;> exact ⟨rfl, rfl⟩

theorem yielded_status_ne_active (v : Version) : v.yielded.status ≠ .active := by
  unfold yielded
  split
  · simp
  · next hactive => exact hactive

end Version

/-! ### One step -/

namespace Ruleset

/-- **The marks of all versions are those that a history leaves**, given the operations of it
that succeeded. -/
structure Trail (s : Ruleset) (done : List Operation) : Prop where
  /-- The marks of a version go with its status. -/
  marked : ∀ v ∈ s.versions, v.Marked
  /-- A version was approved once by whom it says, or never. -/
  approved : ∀ v ∈ s.versions,
    done.filterMap (Operation.approver? v.id) = v.approvedBy.toList
  /-- What is no version was never approved. -/
  unapproved : ∀ id, (∀ v ∈ s.versions, v.id ≠ id) → done.filterMap (Operation.approver? id) = []
  /-- The active version is the one that was activated last, by whom it says. -/
  active : ∀ v ∈ s.versions, v.status = .active →
    ∃ actor, v.activatedBy = some actor ∧
      (done.filterMap Operation.activation?).getLast? = some (v.id, actor)

variable {done done' : List Operation}

/-- Before anything is done, all versions have to be without marks. -/
theorem trail_of_create {input : NewRuleset} (h : create input = .ok s) : s.Trail [] := by
  obtain ⟨-, rfl⟩ := create_eq_ok_iff.mp h
  refine ⟨?_, ?_, fun _ _ => rfl, ?_⟩
  · intro v hv
    obtain rfl := List.mem_singleton.mp hv
    exact ⟨by simp [firstVersion], by simp [firstVersion]⟩
  · intro v hv
    obtain rfl := List.mem_singleton.mp hv
    rfl
  · intro v hv hactive
    obtain rfl := List.mem_singleton.mp hv
    cases hactive

/-! An operation that succeeds is one more that counts. -/

theorem filterMap_approver_concat (done : List Operation) (op : Operation) (id : String) :
    (done ++ [op]).filterMap (Operation.approver? id) =
      done.filterMap (Operation.approver? id) ++ (op.approver? id).toList := by
  rw [List.filterMap_append]
  cases h : op.approver? id <;> simp [h]

theorem filterMap_activation_concat (done : List Operation) (op : Operation) :
    (done ++ [op]).filterMap Operation.activation? =
      done.filterMap Operation.activation? ++ op.activation?.toList := by
  rw [List.filterMap_append]
  cases h : op.activation? <;> simp [h]

/-- What an operation that is no approval and no activation leaves of the marks is what there
was. -/
theorem Trail.concat_of_quiet (h : s.Trail done) (happroves : ∀ id, op.approver? id = none)
    (hactivates : op.activation? = none) : s.Trail (done ++ [op]) := by
  refine ⟨h.marked, fun v hv => ?_, fun id hid => ?_, fun v hv hactive => ?_⟩
  · rw [filterMap_approver_concat, happroves, Option.toList_none, List.append_nil]
    exact h.approved v hv
  · rw [filterMap_approver_concat, happroves, Option.toList_none, List.append_nil]
    exact h.unapproved id hid
  · rw [filterMap_activation_concat, hactivates, Option.toList_none, List.append_nil]
    exact h.active v hv hactive

/-- Starting a version leaves no mark, on the new version or on another. -/
theorem Trail.start (h : s.Trail done) {latest : Version} {createdBy : String}
    (hfresh : ∀ v ∈ s.versions, v.id ≠ (s.successor latest createdBy).id) :
    ({ s with versions := s.versions ++ [s.successor latest createdBy] } : Ruleset).Trail done := by
  refine ⟨fun v hv => ?_, fun v hv => ?_, fun id hid => ?_, fun v hv hactive => ?_⟩
  · rcases List.mem_append.mp hv with hv | hv
    · exact h.marked v hv
    · obtain rfl := List.mem_singleton.mp hv
      exact ⟨by simp [successor], by simp [successor]⟩
  · rcases List.mem_append.mp hv with hv | hv
    · exact h.approved v hv
    · obtain rfl := List.mem_singleton.mp hv
      exact h.unapproved _ hfresh
  · exact h.unapproved id fun v hv => hid v (List.mem_append_left _ hv)
  · rcases List.mem_append.mp hv with hv | hv
    · exact h.active v hv hactive
    · obtain rfl := List.mem_singleton.mp hv
      cases hactive

/-- One version is replaced by another with its id: what has to be known is who approved that
one, and that nobody else was approved or activated. -/
theorem Trail.replace (h : s.Trail done) (hids : (s.versions.map Version.id).Nodup)
    {pre post : List Version} {w : Version} (heq : s.versions = pre ++ v :: post)
    (hid : w.id = v.id) (hmarked : w.Marked)
    (hown : done'.filterMap (Operation.approver? v.id) = w.approvedBy.toList)
    (hothers : ∀ id, id ≠ v.id → done'.filterMap (Operation.approver? id) =
      done.filterMap (Operation.approver? id))
    (hquiet : done'.filterMap Operation.activation? = done.filterMap Operation.activation?)
    (hactive : w.status = .active → v.status = .active ∧ w.activatedBy = v.activatedBy) :
    ({ s with versions := pre ++ w :: post } : Ruleset).Trail done' := by
  have hv : v ∈ s.versions := by simp [heq]
  have hcases : ∀ u ∈ pre ++ w :: post, u = w ∨ u ∈ s.versions ∧ u.id ≠ v.id := by
    intro u hu
    have hplace : u = w ∨ u ∈ pre ++ post := by
      simp only [List.mem_append, List.mem_cons] at hu ⊢
      tauto
    refine hplace.imp_right fun hu => ⟨?_, key_ne_of_nodup hids heq u hu⟩
    rw [heq]
    simp only [List.mem_append, List.mem_cons] at hu ⊢
    tauto
  refine ⟨fun u hu => ?_, fun u hu => ?_, fun id hnone => ?_, fun u hu hstatus => ?_⟩
  · rcases hcases u hu with rfl | ⟨hu, -⟩
    · exact hmarked
    · exact h.marked u hu
  · rcases hcases u hu with rfl | ⟨hu, hne⟩
    · rw [hid, hown]
    · rw [hothers u.id hne, h.approved u hu]
  · have hne : id ≠ v.id := fun he => hnone w (by simp) (hid.trans he.symm)
    rw [hothers id hne]
    refine h.unapproved id fun u hu => ?_
    rw [heq] at hu
    simp only [List.mem_append, List.mem_cons] at hu
    rcases hu with hu | rfl | hu
    · exact hnone u (by simp [hu])
    · exact Ne.symm hne
    · exact hnone u (by simp [hu])
  · rw [hquiet]
    rcases hcases u hu with rfl | ⟨hu, -⟩
    · obtain ⟨hstatus, hmark⟩ := hactive hstatus
      rw [hid, hmark]
      exact h.active v hv hstatus
    · exact h.active u hu hstatus

/-- An approval leaves its mark on the version that it freezes, and on no other. -/
theorem Trail.freeze (h : s.Trail done) (hids : (s.versions.map Version.id).Nodup)
    {pre post : List Version} (heq : s.versions = pre ++ v :: post) (hdraft : v.status = .draft)
    (actor : String) :
    ({ s with versions := pre ++ v.freeze actor :: post } : Ruleset).Trail
      (done ++ [Operation.approve v.id actor]) := by
  have hv : v ∈ s.versions := by simp [heq]
  refine h.replace hids heq rfl ((h.marked v hv).freeze hdraft actor) ?_ ?_ ?_ ?_
  · -- So far nobody had approved it, for it was a draft.
    have hnone : v.approvedBy = none := by
      have hnot : ¬v.approvedBy.isSome := fun hsome => (h.marked v hv).approved.mp hsome hdraft
      simpa using hnot
    have hmark : (Operation.approve v.id actor).approver? v.id = some actor := if_pos rfl
    rw [filterMap_approver_concat, h.approved v hv, hnone, hmark]
    rfl
  · intro id hne
    have hnone : (Operation.approve v.id actor).approver? id = none := if_neg (Ne.symm hne)
    rw [filterMap_approver_concat, hnone, Option.toList_none, List.append_nil]
  · have hnone : (Operation.approve v.id actor).activation? = none := rfl
    rw [filterMap_activation_concat, hnone, Option.toList_none, List.append_nil]
  · intro hactive
    cases hactive

/-- An edit leaves the marks as they are. -/
theorem Trail.edit (h : s.Trail done) (hids : (s.versions.map Version.id).Nodup)
    {pre post : List Version} {v' : Version} {e : VersionEdit} {answer : Option Entry}
    (heq : s.versions = pre ++ v :: post) (hedit : v.Edited e answer v') :
    ({ s with versions := pre ++ v' :: post } : Ruleset).Trail done := by
  have hv : v ∈ s.versions := by simp [heq]
  obtain ⟨happroved, hactivated⟩ := hedit.marks_eq
  have hmarked : v'.Marked := by
    refine ⟨?_, ?_⟩
    · rw [happroved, hedit.status_eq]
      exact (h.marked v hv).approved
    · rw [hactivated, hedit.status_eq]
      exact (h.marked v hv).activated
  refine h.replace hids heq hedit.id_eq hmarked ?_ (fun _ _ => rfl) rfl fun hactive => ?_
  · rw [happroved, h.approved v hv]
  · exact ⟨hedit.status_eq ▸ hactive, hactivated⟩

/-- An activation leaves its mark on the version that it makes active, and takes that of the
version that gives way. -/
theorem Trail.activate (h : s.Trail done) (hids : (s.versions.map Version.id).Nodup)
    (hv : v ∈ s.versions) (hfrozen : v.status = .approved) (owner : Option String)
    (actor : String) :
    ({ s with versions := s.versions.map (promote v.id actor) } : Ruleset).Trail
      (done ++ [Operation.activation owner v.id actor]) := by
  have hsame : ∀ u ∈ s.versions, u.id = v.id → u = v := fun u hu hid =>
    List.inj_on_of_nodup_map hids hu hv hid
  have hkeep : ∀ id, (done ++ [Operation.activation owner v.id actor]).filterMap
      (Operation.approver? id) = done.filterMap (Operation.approver? id) := by
    intro id
    rw [filterMap_approver_concat, Operation.approver?_activation, Option.toList_none,
      List.append_nil]
  have hmark : ∀ u : Version, (promote v.id actor u).approvedBy = u.approvedBy := by
    intro u
    rw [promote_eq]
  refine ⟨fun w hw => ?_, fun w hw => ?_, fun id hid => ?_, fun w hw hactive => ?_⟩
  · obtain ⟨u, hu, rfl⟩ := List.mem_map.mp hw
    rw [Version.promote_eq_ite]
    split
    · next hid =>
      obtain rfl := hsame u hu hid
      exact (h.marked u hu).activate (by rw [hfrozen]; simp) actor
    · exact (h.marked u hu).yielded
  · obtain ⟨u, hu, rfl⟩ := List.mem_map.mp hw
    rw [promote_id, hkeep, hmark]
    exact h.approved u hu
  · rw [hkeep]
    refine h.unapproved id fun u hu => ?_
    have hne := hid (promote v.id actor u) (List.mem_map_of_mem hu)
    rwa [promote_id] at hne
  · obtain ⟨u, hu, rfl⟩ := List.mem_map.mp hw
    have hid : u.id = v.id := promote_status_eq_active_iff.mp hactive
    refine ⟨actor, by rw [promote_of_eq hid], ?_⟩
    rw [filterMap_activation_concat, Operation.activation?_activation, promote_id, hid]
    exact List.getLast?_concat

/-- **A step leaves the marks** that the history leaves with this step as its last one, if ids
tell the versions apart. -/
theorem Trail.step (h : s.Trail done) (hids : (s.versions.map Version.id).Nodup)
    (hids' : (s'.versions.map Version.id).Nodup) (hperf : s.Performed op a s') :
    s'.Trail (done ++ [op]) := by
  cases hperf with
  | @started createdBy latest hfound hfits =>
    refine (h.start fun v hv hid => ?_).concat_of_quiet (fun _ => rfl) rfl
    rw [List.map_append, List.nodup_append'] at hids'
    exact hids'.2.2 (List.mem_map_of_mem hv) (by simp [hid])
  | @approved id actor pre post v hat hdraft =>
    obtain rfl : v.id = id := by simpa using hat.picked
    exact h.freeze hids hat.eq hdraft actor
  | @activated owner id actor v hfound howned hfrozen =>
    obtain rfl : v.id = id := by simpa using List.find?_some hfound
    exact h.activate hids (List.mem_of_find?_eq_some hfound) hfrozen owner actor
  | @edited id e answer pre post v v' hat hedit =>
    exact (h.edit hids hat.eq hedit).concat_of_quiet (fun _ => rfl) rfl

/-! ### Whole histories -/

/-- **A history leaves the marks** that its successful operations leave. -/
theorem Trail.after (h : s.Trail done) (hreach : s.Reachable) {ops : List Operation}
    (hroom : s.HasRoomFor ops) : (s.after ops).Trail (done ++ s.succeeding ops) := by
  induction ops generalizing s done with
  | nil =>
    rw [succeeding, List.append_nil]
    exact h
  | cons op ops ih =>
    have hone : s.HasRoomFor [op] := ⟨hroom.1, trivial⟩
    have hnext : (op.perform.run s).2.Reachable := hreach.after hone
    rw [after_cons, succeeding]
    cases hdone : op.succeeds s with
    | true =>
      obtain ⟨a, hperf⟩ := Operation.succeeds_iff.mp hdone
      have hstep := h.step hreach.numbered.nodup_ids hnext.numbered.nodup_ids hperf
      rw [if_pos rfl, ← List.singleton_append, ← List.append_assoc]
      exact ih hstep hnext hroom.2
    | false =>
      have hsame : (op.perform.run s).2 = s := Operation.run_perform_of_not_succeeds hdone
      rw [if_neg Bool.false_ne_true]
      have hrest : s.HasRoomFor ops := hsame ▸ hroom.2
      rw [hsame]
      exact ih h hreach hrest

/-- **The marks of the versions in the histories of a new ruleset**, while the numbers last. Who
approved a version is known unless it is a draft, and who activated it while it is active. The
history holds as many successful approvals of a version as it has marks of one, so one or none,
by whom the mark says; and the last activation of all that succeeded was that of the active
version, by whom its mark says. -/
theorem trail_after_create {input : NewRuleset} {first : Ruleset} {ops : List Operation}
    (h : create input = .ok first) (hroom : first.HasRoomFor ops) :
    ∀ v ∈ (first.after ops).versions,
      (v.approvedBy.isSome ↔ v.status ≠ .draft) ∧
      (v.activatedBy.isSome ↔ v.status = .active) ∧
      first.approvers ops v.id = v.approvedBy.toList ∧
      (v.status = .active → ∃ actor, v.activatedBy = some actor ∧
        (first.activations ops).getLast? = some (v.id, actor)) := by
  intro v hv
  have hreach : first.Reachable := ⟨input, first, [], h, trivial, rfl⟩
  have htrail := (trail_of_create h).after hreach hroom
  rw [List.nil_append] at htrail
  have hmarked := htrail.marked v hv
  exact ⟨hmarked.approved, hmarked.activated, htrail.approved v hv, htrail.active v hv⟩

/-- The second version is made active, the first takes its place again, and an approval comes
twice. -/
def restoration : List Operation :=
  twoReleases ++ [.activate "rs:v2" "lead", .approve "rs:v2" "analyst",
    .rollback "rs" "rs:v1" "chief", .newVersion "analyst"]

theorem trail_after_restoration :
    cardFraud.HasRoomFor restoration ∧
      ∃ v ∈ (cardFraud.after restoration).versions, v.id = "rs:v1" ∧ v.status = .active ∧
        cardFraud.approvers restoration "rs:v1" = ["lead"] ∧ v.approvedBy = some "lead" ∧
        ∃ actor, v.activatedBy = some actor ∧ actor = "chief" ∧
          (cardFraud.activations restoration).getLast? = some ("rs:v1", actor) := by
  have hroom : cardFraud.HasRoomFor restoration := by decide
  obtain ⟨-, -, happroved, hactive⟩ :=
    trail_after_create create_cardFraudInput hroom _ (List.mem_of_getElem? (i := 0) rfl)
  obtain ⟨actor, hactor, hlast⟩ := hactive rfl
  refine ⟨hroom, _, List.mem_of_getElem? (i := 0) rfl, rfl, rfl, happroved, rfl, actor, hactor, ?_,
    hlast⟩
  exact (Option.some.inj hactor).symm

end Ruleset

end Rulebook
