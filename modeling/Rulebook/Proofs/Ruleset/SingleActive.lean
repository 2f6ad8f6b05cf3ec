import Rulebook.Proofs.Ruleset.Numbering
import Rulebook.Ruleset.Check

/-!
# At most one version is active

An activation goes through all versions: those with the id become active, and all others cease
to be. What it leaves active is therefore counted by ids alone – as many versions as have the
id – and it is the numbering that makes this count one.

* `Rulebook.Ruleset.Performed.activeCount_eq` – how many versions a step leaves active;
* `Rulebook.Ruleset.filter_active_of_run_activateFor` – what an activation leaves active;
* `Rulebook.Ruleset.after_create_numbered_singleActive` – whatever is done to a new ruleset, its
  versions are numbered and at most one of them is active.
-/

namespace Rulebook

namespace Ruleset

variable {s s' : Ruleset} {op : Operation} {a : Answer} {id actor : String} {v : Version}

/-! ### Counting -/

/-- **An activation leaves as many versions active as have the id.** -/
theorem countP_active_map_promote (vs : List Version) :
    (vs.map (promote id actor)).countP (fun w => w.status == .active) =
      vs.countP fun w => w.id == id := by
  rw [List.countP_map]
  refine List.countP_congr fun w _ => ?_
  simp [promote_status_eq_active_iff]

/-- Every other step leaves as many versions active as there were: it concerns drafts, and what
it makes of them is not active either. -/
theorem Performed.activeCount_eq (h : s.Performed op a s') :
    s'.activeCount = s.activeCount ∨
      ∃ owner id actor, op = .activation owner id actor ∧
        s'.activeCount = s.versions.countP fun w => w.id == id := by
  cases h with
  | @started createdBy latest hfound hfits =>
    have hdraft : (s.successor latest createdBy).status = .draft := rfl
    exact Or.inl (by simp [activeCount, hdraft])
  | @approved id actor pre post v hat hdraft =>
    have hfrozen : (v.freeze actor).status = .approved := rfl
    exact Or.inl (by simp [activeCount, hat.eq, hdraft, hfrozen])
  | @activated owner id actor v hfound howned hfrozen =>
    exact Or.inr ⟨owner, id, actor, rfl, countP_active_map_promote s.versions⟩
  | @edited id e answer pre post v v' hat hedit =>
    exact Or.inl (by simp [activeCount, hat.eq, List.countP_cons, hedit.status_eq])

theorem countP_id_le_one {vs : List Version} (h : (vs.map Version.id).Nodup) (id : String) :
    (vs.countP fun w => w.id == id) ≤ 1 := by
  have hcount : (vs.map Version.id).count id ≤ 1 := List.nodup_iff_count.mp h id
  rw [List.count_eq_countP, List.countP_map] at hcount
  exact hcount

/-- **If ids tell the versions apart**, a step leaves at most one active. -/
theorem Performed.activeCount_le_one (h : s.Performed op a s')
    (hids : (s.versions.map Version.id).Nodup) (hs : s.activeCount ≤ 1) : s'.activeCount ≤ 1 := by
  rcases h.activeCount_eq with heq | ⟨owner, id, actor, -, heq⟩
  · rw [heq]
    exact hs
  · rw [heq]
    exact countP_id_le_one hids id

theorem Reachable.activeCount_le_one (h : s.Reachable) : s.activeCount ≤ 1 := by
  -- The count is kept only together with the numbering, which keeps the ids apart.
  have hboth : s.Numbered ∧ s.activeCount ≤ 1 := by
    refine h.induction (P := fun t => t.Numbered ∧ t.activeCount ≤ 1) ?_ ?_
    · intro input first hfirst
      refine ⟨numbered_of_create hfirst, ?_⟩
      obtain ⟨-, rfl⟩ := create_eq_ok_iff.mp hfirst
      simp [activeCount, firstVersion]
    · intro t op a t' ⟨hnumbered, hcount⟩ hroom hperf
      exact ⟨hnumbered.step hroom hperf, hperf.activeCount_le_one hnumbered.nodup_ids hcount⟩
  exact hboth.2

/-! ### The active version -/

/-- Of two active versions neither has an id of its own, if one at most is active. -/
theorem id_eq_of_active (hs : s.activeCount ≤ 1) (hv : v ∈ s.versions) (hw : w ∈ s.versions)
    (hvactive : v.status = .active) (hwactive : w.status = .active) : v.id = w.id := by
  rw [activeCount, List.countP_eq_length_filter] at hs
  have hmem : ∀ u ∈ s.versions, u.status = .active →
      u ∈ s.versions.filter fun u => u.status == .active := by
    intro u hu hactive
    simpa [hactive] using hu
  have hvmem := hmem v hv hvactive
  have hwmem := hmem w hw hwactive
  rcases hfilter : s.versions.filter fun u => u.status == .active with _ | ⟨u, us⟩
  · rw [hfilter] at hvmem
    exact absurd hvmem List.not_mem_nil
  · rw [hfilter] at hs hvmem hwmem
    have hus : us = [] := List.length_eq_zero_iff.mp (by simpa using hs)
    rw [hus, List.mem_singleton] at hvmem hwmem
    rw [hvmem, hwmem]

/-- **The version that was activated is the active one**, if ids tell the versions apart. -/
theorem filter_active_of_run_activateFor (owner : Option String)
    (hids : (s.versions.map Version.id).Nodup)
    (h : (activateFor owner id actor).run s = (.ok v, s')) :
    v.id = id ∧ s'.versions.filter (fun w => w.status == .active) = [v] ∧
      s'.activeVersion? = some v := by
  obtain ⟨u, hfound, -, -, rfl, rfl⟩ := run_activateFor_eq_ok_iff.mp h
  obtain ⟨pre, post, hat⟩ := exists_firstAt_of_find? hfound
  have hid : u.id = id := by simpa using hat.picked
  have hothers : ∀ w ∈ pre ++ post, w.id ≠ id := hid ▸ key_ne_of_nodup hids hat.eq
  have hnone : ∀ ws : List Version, (∀ w ∈ ws, w.id ≠ id) →
      (ws.map (promote id actor)).filter (fun w => w.status == .active) = [] := by
    intro ws hws
    rw [List.filter_eq_nil_iff]
    intro w hw
    obtain ⟨w, hmem, rfl⟩ := List.mem_map.mp hw
    simp [promote_status_eq_active_iff, hws w hmem]
  have hactive : (promote id actor u).status = .active := promote_status_eq_active_iff.mpr hid
  have hfilter : (s.versions.map (promote id actor)).filter (fun w => w.status == .active) =
      [promote id actor u] := by
    rw [hat.eq, List.map_append, List.map_cons, List.filter_append,
      List.filter_cons_of_pos (by simp [hactive]),
      hnone pre fun w hw => hothers w (List.mem_append_left _ hw),
      hnone post fun w hw => hothers w (List.mem_append_right _ hw), List.nil_append]
  refine ⟨by simp [hid], hfilter, ?_⟩
  rw [activeVersion?, ← List.head?_filter, hfilter, List.head?_cons]

/-- A history keeps the id of the ruleset. -/
theorem after_id {ops : List Operation} (hroom : s.HasRoomFor ops) : (s.after ops).id = s.id := by
  refine after_induction (P := fun t => t.id = s.id) ?_ rfl hroom
  intro t op a t' ht _ hperf
  rw [← ht]
  cases hperf <;> rfl

/-- **Whatever is done to a new ruleset**, while the numbers last: the version at each place has
the number that follows the place, the id that goes with the number and the ruleset it is a
version of; no two ids are the same; at most one version is active; and after a successful
activation the activated version is the one that is active. -/
theorem after_create_numbered_singleActive {input : NewRuleset} {first : Ruleset}
    (h : create input = .ok first) (ops : List Operation) (hroom : first.HasRoomFor ops) :
    (first.after ops).id = input.id ∧
      (∀ i (hi : i < (first.after ops).versions.length),
        (first.after ops).versions[i].number.toNat = i + 1 ∧
          (first.after ops).versions[i].id = input.id ++ ":v" ++ toString (i + 1) ∧
          (first.after ops).versions[i].rulesetId = input.id) ∧
      ((first.after ops).versions.map Version.id).Nodup ∧
      (first.after ops).activeCount ≤ 1 ∧
      ∀ id actor v s',
        ((activate id actor).run (first.after ops) = (.ok v, s') ∨
          ∃ rulesetId, (rollback rulesetId id actor).run (first.after ops) = (.ok v, s')) →
        v.id = id ∧ s'.versions.filter (fun w => w.status == .active) = [v] ∧
          s'.activeVersion? = some v := by
  have hreach : (first.after ops).Reachable := ⟨input, first, ops, h, hroom, rfl⟩
  have hnumbered := hreach.numbered
  have hid : (first.after ops).id = input.id := by
    rw [after_id hroom]
    obtain ⟨-, rfl⟩ := create_eq_ok_iff.mp h
    rfl
  refine ⟨hid, fun i hi => ?_, hnumbered.nodup_ids, hreach.activeCount_le_one, ?_⟩
  · have hmem : (first.after ops).versions[i] ∈ (first.after ops).versions := List.getElem_mem hi
    have hnumber := hnumbered.number_getElem i hi
    refine ⟨hnumber, ?_, (hnumbered.owners _ hmem).trans hid⟩
    rw [hnumbered.ids _ hmem, Version.idOf, hnumber, hid]
  · rintro id actor v s' (hrun | ⟨rulesetId, hrun⟩)
    · exact filter_active_of_run_activateFor none hnumbered.nodup_ids hrun
    · exact filter_active_of_run_activateFor (some rulesetId) hnumbered.nodup_ids hrun

/-- Two versions are released one after the other; the second is activated too early once. -/
def twoReleases : List Operation :=
  [.edit "rs:v1" (.addEntry ⟨"limit:1", "limit", .approved, false⟩ true (some 1)),
   .approve "rs:v1" "lead", .activate "rs:v1" "lead", .newVersion "analyst",
   .activate "rs:v2" "lead", .approve "rs:v2" "lead"]

theorem rollback_after_twoReleases :
    cardFraud.HasRoomFor twoReleases ∧
      ∃ v s', (rollback "rs" "rs:v2" "lead").run (cardFraud.after twoReleases) = (.ok v, s') ∧
        v.id = "rs:v2" ∧ s'.versions.filter (fun w => w.status == .active) = [v] ∧
          s'.activeVersion? = some v := by
  have hroom : cardFraud.HasRoomFor twoReleases := by decide
  obtain ⟨-, -, -, -, hactive⟩ :=
    after_create_numbered_singleActive create_cardFraudInput twoReleases hroom
  exact ⟨hroom, _, _, rfl, hactive "rs:v2" "lead" _ _ (Or.inr ⟨"rs", rfl⟩)⟩

end Ruleset

end Rulebook
