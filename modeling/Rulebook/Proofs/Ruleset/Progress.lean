import Rulebook.Proofs.Ruleset.Frame

/-!
# How the status of a version moves

A version is drafted, approved and made active, and the only way back leads from active to
approved, when another version is activated in its place. That an activation cannot make a draft
active is a matter of ids: it makes every version active that has the id, but looks at one of
them only. In a reachable ruleset ids are apart. The status of the whole ruleset never goes back,
because whatever makes an active version give way makes another one active.

* `Rulebook.Ruleset.StatusStep` – how an operation may change the status of a version;
* `Rulebook.Ruleset.Reachable.exists_statusStep` – it changes in no other way;
* `Rulebook.Ruleset.Reachable.exists_approve` – what is no draft has been approved;
* `Rulebook.Ruleset.rank_derivedStatus_le_after` – the status of the ruleset never goes back;
* `Rulebook.Ruleset.status_after_create` – all of this, for the histories of a new ruleset.
-/

namespace Rulebook

variable {s s' : Ruleset} {op : Operation} {a : Answer} {v v' : Version} {t : Status} {i : Nat}

/-! ### The order of statuses -/

namespace Status

/-- **How far a status is**: a draft, approved, active. -/
def rank : Status → Nat
  | .draft => 0
  | .approved => 1
  | .active => 2

theorem rank_le_two (t : Status) : t.rank ≤ 2 := by
  cases t <;> decide

theorem rank_le_one_iff {t : Status} : t.rank ≤ 1 ↔ t ≠ .active := by
  cases t <;> decide

theorem rank_further (t u : Status) : (t.further u).rank = max t.rank u.rank := by
  cases t <;> cases u <;> rfl

theorem rank_foldl_further_le_iff {ts : List Status} {t : Status} {n : Nat} :
    (ts.foldl further t).rank ≤ n ↔ t.rank ≤ n ∧ ∀ u ∈ ts, u.rank ≤ n := by
  induction ts generalizing t with
  | nil => simp
  | cons u ts ih =>
    rw [List.foldl_cons, ih, rank_further, Nat.max_le, List.forall_mem_cons, and_assoc]

/-- **The furthest of several statuses** is as far as the furthest of them. -/
theorem rank_derive_le_iff {ts : List Status} {n : Nat} :
    (derive ts).rank ≤ n ↔ ∀ u ∈ ts, u.rank ≤ n := by
  rw [derive, rank_foldl_further_le_iff]
  exact and_iff_right (Nat.zero_le n)

end Status

/-! ### The status of a ruleset -/

namespace Ruleset

theorem rank_derivedStatus_le_iff {n : Nat} :
    s.derivedStatus.rank ≤ n ↔ ∀ v ∈ s.versions, v.status.rank ≤ n := by
  rw [derivedStatus, Status.rank_derive_le_iff, List.forall_mem_map]

/-- **A ruleset is active** exactly if it has an active version. -/
theorem derivedStatus_eq_active_iff :
    s.derivedStatus = .active ↔ ∃ v, s.activeVersion? = some v := by
  rw [← Option.isSome_iff_exists, activeVersion?, List.find?_isSome]
  constructor
  · intro hactive
    by_contra hnone
    have hle : s.derivedStatus.rank ≤ 1 := by
      rw [rank_derivedStatus_le_iff]
      intro v hv
      refine Status.rank_le_one_iff.mpr fun hstatus => hnone ⟨v, hv, ?_⟩
      rw [hstatus, beq_self_eq_true]
    exact Status.rank_le_one_iff.mp hle hactive
  · rintro ⟨v, hv, hstatus⟩
    by_contra hother
    have hle := rank_derivedStatus_le_iff.mp (Status.rank_le_one_iff.mpr hother) v hv
    exact Status.rank_le_one_iff.mp hle (eq_of_beq hstatus)

end Ruleset

/-- Only an activation sets a version back. -/
theorem Version.Became.rank_le (h : v.Became op v') (hop : op.activates = false) :
    v.status.rank ≤ v'.status.rank := by
  cases h with
  | same => exact Nat.le_refl _
  | frozen hdraft =>
    rw [hdraft]
    exact Nat.zero_le _
  | edited hedit => exact Nat.le_of_eq (congrArg Status.rank hedit.status_eq.symm)
  | activated | yielded =>
    rw [Operation.activates_activation] at hop
    cases hop

namespace Ruleset

/-- **An activation that succeeds** found the version approved, and leaves it active. -/
theorem Performed.exists_promoted (h : s.Performed op a s') (hop : op.activates = true) :
    ∃ id actor u, op.target? = some id ∧ u ∈ s.versions ∧ u.id = id ∧ u.status = .approved ∧
      u.activated actor ∈ s'.versions := by
  cases h with
  | started => cases hop
  | approved => cases hop
  | edited => cases hop
  | @activated owner id actor u hfound howned hfrozen =>
    have hmem : u ∈ s.versions := List.mem_of_find?_eq_some hfound
    have hid : u.id = id := by simpa using List.find?_some hfound
    refine ⟨id, actor, u, Operation.target?_activation owner id actor, hmem, hid, hfrozen, ?_⟩
    have hpromote : promote id actor u = u.activated actor := promote_of_eq hid
    exact hpromote ▸ List.mem_map_of_mem hmem

/-- **A step sets the status of the ruleset not back**: if a version gives way, another one is
active in its place. -/
theorem Performed.rank_derivedStatus_le (h : s.Performed op a s') :
    s.derivedStatus.rank ≤ s'.derivedStatus.rank := by
  have hall := rank_derivedStatus_le_iff.mp (Nat.le_refl s'.derivedStatus.rank)
  rw [rank_derivedStatus_le_iff]
  intro v hv
  cases hop : op.activates with
  | true =>
    obtain ⟨id, actor, u, -, -, -, -, hu⟩ := h.exists_promoted hop
    exact Nat.le_trans (Status.rank_le_two _) (hall _ hu)
  | false =>
    obtain ⟨i, hi⟩ := List.getElem?_of_mem hv
    obtain ⟨v', hv', hbecame⟩ := h.exists_became hi
    exact Nat.le_trans (hbecame.rank_le hop) (hall v' (List.mem_of_getElem? hv'))

/-- **The status of a ruleset never goes back**, whatever ruleset it is. -/
theorem rank_derivedStatus_le_after (s : Ruleset) (ops : List Operation) :
    s.derivedStatus.rank ≤ (s.after ops).derivedStatus.rank := by
  induction ops generalizing s with
  | nil => exact Nat.le_refl _
  | cons op ops ih =>
    rw [after_cons]
    refine Nat.le_trans ?_ (ih _)
    rcases op.performed_or_eq s with heq | ⟨a, hperf⟩
    · exact Nat.le_of_eq (by rw [heq])
    · exact hperf.rank_derivedStatus_le

/-! ### The status of a version -/

/-- **How an operation may change the status of a version.** -/
inductive StatusStep (s : Ruleset) (v : Version) : Operation → Status → Prop where
  /-- It stays as it is. -/
  | same {op : Operation} : StatusStep s v op v.status
  /-- A draft is approved, by an approval of this version. -/
  | approved {actor : String} (draft : v.status = .draft)
      (done : (Operation.approve v.id actor).succeeds s = true) :
      StatusStep s v (.approve v.id actor) .approved
  /-- An approved version becomes active, by an activation of this version. -/
  | activated {owner : Option String} {actor : String} (frozen : v.status = .approved)
      (done : (Operation.activation owner v.id actor).succeeds s = true) :
      StatusStep s v (.activation owner v.id actor) .active
  /-- An active version is approved again, by an activation of another version. -/
  | demoted {owner : Option String} {actor : String} {w : Version} (other : w ∈ s.versions)
      (ne : w.id ≠ v.id) (active : v.status = .active)
      (done : (Operation.activation owner w.id actor).succeeds s = true) :
      StatusStep s v (.activation owner w.id actor) .approved

/-- **From a draft only an approval leads on.** -/
theorem StatusStep.exists_approve (h : s.StatusStep v op t) (hdraft : v.status = .draft)
    (ht : t ≠ .draft) : ∃ actor, op = .approve v.id actor ∧ op.succeeds s = true := by
  cases h with
  | same => exact absurd hdraft ht
  | @approved actor _ hdone => exact ⟨actor, rfl, hdone⟩
  | activated hfrozen =>
    rw [hdraft] at hfrozen
    cases hfrozen
  | demoted _ _ hactive =>
    rw [hdraft] at hactive
    cases hactive

/-- What may become of a version in a step is such a change, if ids tell the versions apart. -/
theorem Performed.statusStep (h : s.Performed op a (op.perform.run s).2)
    (hids : (s.versions.map Version.id).Nodup) (hv : v ∈ s.versions) (hbecame : v.Became op v') :
    s.StatusStep v op v'.status := by
  have hdone : op.succeeds s = true := Operation.succeeds_iff.mpr ⟨a, h⟩
  cases hbecame with
  | same => exact .same
  | frozen hdraft => exact .approved hdraft hdone
  | edited hedit =>
    rw [hedit.status_eq]
    exact .same
  | @activated owner actor =>
    obtain ⟨id, -, u, htarget, hu, hid, hfrozen, -⟩ :=
      h.exists_promoted (Operation.activates_activation owner v.id actor)
    rw [Operation.target?_activation] at htarget
    obtain rfl := Option.some.inj htarget
    obtain rfl : u = v := List.inj_on_of_nodup_map hids hu hv hid
    exact .activated hfrozen hdone
  | @yielded owner id actor hother =>
    obtain ⟨w, hw, rfl⟩ := h.exists_id_eq (Operation.target?_activation owner id actor)
    by_cases hactive : v.status = .active
    · rw [Version.yielded_of_active hactive]
      exact .demoted hw (Ne.symm hother) hactive hdone
    · rw [Version.yielded_of_ne_active hactive]
      exact .same

/-- **The status of a version changes in no other way** in a reachable ruleset. -/
theorem Reachable.exists_statusStep (h : s.Reachable) (op : Operation)
    (hv : s.versions[i]? = some v) :
    ∃ v', (op.perform.run s).2.versions[i]? = some v' ∧ v'.id = v.id ∧
      s.StatusStep v op v'.status := by
  rcases op.performed_or_eq s with heq | ⟨a, hperf⟩
  · rw [heq]
    exact ⟨v, hv, rfl, .same⟩
  · obtain ⟨v', hv', hbecame⟩ := hperf.exists_became hv
    refine ⟨v', hv', hbecame.preserved.id_eq, ?_⟩
    exact hperf.statusStep h.numbered.nodup_ids (List.mem_of_getElem? hv) hbecame

/-- **What was not there before is a draft.** -/
theorem status_eq_draft_of_new (op : Operation)
    (hv : (op.perform.run s).2.versions[i]? = some v) (hnone : s.versions[i]? = none) :
    v.status = .draft := by
  rcases op.performed_or_eq s with heq | ⟨a, hperf⟩
  · rw [heq, hnone] at hv
    cases hv
  · exact hperf.status_eq_draft hv (List.getElem?_eq_none_iff.mp hnone)

/-- **What is no draft has been approved**, before the history or in it. -/
theorem Reachable.exists_approve (h : s.Reachable) {ops : List Operation}
    (hroom : s.HasRoomFor ops) (hv : (s.after ops).versions[i]? = some v)
    (hstatus : v.status ≠ .draft) :
    (∃ u, s.versions[i]? = some u ∧ u.status ≠ .draft) ∨
      ∃ before actor rest u, ops = before ++ .approve v.id actor :: rest ∧
        (s.after before).versions[i]? = some u ∧ u.id = v.id ∧ u.status = .draft ∧
        (Operation.approve v.id actor).succeeds (s.after before) = true := by
  induction ops generalizing s with
  | nil => exact Or.inl ⟨v, hv, hstatus⟩
  | cons op ops ih =>
    have hone : s.HasRoomFor [op] := ⟨hroom.1, trivial⟩
    have hnext : (op.perform.run s).2.Reachable := h.after hone
    rcases ih hnext hroom.2 hv with ⟨w, hw, hfrozen⟩ | ⟨before, actor, rest, u, rfl, hrest⟩
    · rcases hu : s.versions[i]? with _ | u
      · exact absurd (status_eq_draft_of_new op hw hu) hfrozen
      obtain ⟨w', hw', hid, hstep⟩ := h.exists_statusStep op hu
      obtain rfl := Option.some.inj (hw.symm.trans hw')
      obtain ⟨v', hv', hpreserved⟩ := exists_preserved_after ops hw
      obtain rfl := Option.some.inj (hv.symm.trans hv')
      have huv : u.id = v.id := hid.symm.trans hpreserved.id_eq.symm
      by_cases hdraft : u.status = .draft
      · obtain ⟨actor, rfl, hdone⟩ := hstep.exists_approve hdraft hfrozen
        rw [huv] at hdone ⊢
        exact Or.inr ⟨[], actor, ops, u, rfl, hu, huv, hdraft, hdone⟩
      · exact Or.inl ⟨u, rfl, hdraft⟩
    · exact Or.inr ⟨op :: before, actor, rest, u, rfl, hrest⟩

/-- **How the statuses move in the histories of a new ruleset**, while the numbers last. An
operation changes the status of a version in the listed ways only, and a version that it starts
is a draft. A version that is no draft was a draft when it was approved, and never is one again.
The status of the ruleset never goes back, and is that of an active version exactly if there is
one. -/
theorem status_after_create {input : NewRuleset} {first : Ruleset} {ops : List Operation}
    (h : create input = .ok first) (hroom : first.HasRoomFor ops) (hs : first.after ops = s) :
    (∀ (op : Operation) (i : Nat),
      (∀ v, s.versions[i]? = some v →
        ∃ v', (op.perform.run s).2.versions[i]? = some v' ∧ v'.id = v.id ∧
          s.StatusStep v op v'.status) ∧
      (s.versions[i]? = none →
        ∀ v', (op.perform.run s).2.versions[i]? = some v' → v'.status = .draft)) ∧
    (∀ (i : Nat) (v : Version), s.versions[i]? = some v → v.status ≠ .draft →
      (∃ before actor rest u, ops = before ++ .approve v.id actor :: rest ∧
        (first.after before).versions[i]? = some u ∧ u.id = v.id ∧ u.status = .draft ∧
        (Operation.approve v.id actor).succeeds (first.after before) = true) ∧
      ∀ more, ∃ v', (s.after more).versions[i]? = some v' ∧ v'.id = v.id ∧ v'.status ≠ .draft) ∧
    (∀ more, s.derivedStatus.rank ≤ (s.after more).derivedStatus.rank) ∧
    (s.derivedStatus = .active ↔ ∃ v, s.activeVersion? = some v) := by
  have hfirst : first.Reachable := ⟨input, first, [], h, trivial, rfl⟩
  have hreach : s.Reachable := ⟨input, first, ops, h, hroom, hs.symm⟩
  refine ⟨fun op i => ⟨fun v hv => hreach.exists_statusStep op hv, fun hnone v' hv' => ?_⟩,
    fun i v hv hfrozen => ⟨?_, fun more => ?_⟩, rank_derivedStatus_le_after s,
    derivedStatus_eq_active_iff⟩
  · exact status_eq_draft_of_new op hv' hnone
  · rw [← hs] at hv
    rcases hfirst.exists_approve hroom hv hfrozen with ⟨u, hu, hstatus⟩ | happroved
    · -- The first version is a draft.
      obtain ⟨-, rfl⟩ := create_eq_ok_iff.mp h
      obtain rfl := List.mem_singleton.mp (List.mem_of_getElem? hu)
      exact absurd rfl hstatus
    · exact happroved
  · obtain ⟨v', hv', hpreserved⟩ := exists_preserved_after more hv
    exact ⟨v', hv', hpreserved.id_eq, (hpreserved.frozen hfrozen).1⟩

theorem status_after_twoReleases :
    cardFraud.HasRoomFor twoReleases ∧
      ∃ v, (cardFraud.after twoReleases).versions[0]? = some v ∧ v.status = .active ∧
        (∃ before actor rest u, twoReleases = before ++ .approve v.id actor :: rest ∧
          (cardFraud.after before).versions[0]? = some u ∧ u.id = v.id ∧ u.status = .draft ∧
          (Operation.approve v.id actor).succeeds (cardFraud.after before) = true) ∧
        (∃ v', ((Operation.activate "rs:v2" "lead").perform.run
            (cardFraud.after twoReleases)).2.versions[0]? = some v' ∧
          (cardFraud.after twoReleases).StatusStep v (.activate "rs:v2" "lead") v'.status ∧
          v'.status = .approved) ∧
        ∃ w, (cardFraud.after twoReleases).activeVersion? = some w := by
  have hroom : cardFraud.HasRoomFor twoReleases := by decide
  obtain ⟨hstep, hfrozen, -, hactive⟩ :=
    status_after_create create_cardFraudInput hroom rfl
  obtain ⟨happroved, -⟩ := hfrozen 0 _ rfl (by decide)
  obtain ⟨v', hv', -, hmoved⟩ := (hstep (.activate "rs:v2" "lead") 0).1 _ rfl
  obtain rfl := Option.some.inj hv'
  exact ⟨hroom, _, rfl, rfl, happroved, ⟨_, rfl, hmoved, rfl⟩, hactive.mp rfl⟩

end Ruleset

end Rulebook
