import Rulebook.Proofs.Ruleset.SingleActive
import Rulebook.Proofs.Ruleset.Trail

/-!
# A rollback restores the past

Of activations that come one after another, only the last one that succeeds is left to be seen. A
version that was activated before it has given way since, and is as it was: it had been approved,
and what is approved bears no mark of who activated it. So the activations in between do not
matter, and one that makes active again what was active, for the same actor, brings back the ruleset
of that time.

* `Rulebook.Ruleset.promote_promote` – one activation after another;
* `Rulebook.Ruleset.Reactivated` – what activations make of a ruleset, with one lemma for a step and
  one for a run of them;
* `Rulebook.Ruleset.Reachable.rollback_after_activations` – **a rollback restores the past**.
-/

namespace Rulebook

/-! ### One activation after another -/

namespace Version

variable {v : Version}

theorem yielded_yielded (v : Version) : v.yielded.yielded = v.yielded :=
  yielded_of_ne_active v.yielded_status_ne_active

theorem activated_yielded (v : Version) (actor : String) :
    v.yielded.activated actor = v.activated actor := by
  unfold yielded
  split <;> rfl

/-- **Made active to give way at once**, a version that is no draft is left as if it had given way
only: if it was approved, nobody had activated it. -/
theorem yielded_activated (hmarked : v.Marked) (hfrozen : v.status ≠ .draft) (actor : String) :
    (v.activated actor).yielded = v.yielded := by
  have hleft : (v.activated actor).yielded =
      { v with status := .approved, activatedBy := none } := yielded_of_active rfl
  rw [hleft]
  by_cases hactive : v.status = .active
  · rw [yielded_of_active hactive]
  · have happroved : v.status = .approved := by
      cases hstatus : v.status with
      | draft => exact absurd hstatus hfrozen
      | approved => rfl
      | active => exact absurd hstatus hactive
    rw [yielded_of_ne_active hactive, ← happroved, ← hmarked.activatedBy_eq_none hactive]

end Version

namespace Ruleset

variable {s t t' : Ruleset} {op : Operation} {ops : List Operation} {a : Answer} {v : Version}
  {id actor : String}

/-- **Of two activations the second alone is left to be seen**, in a version that the first did not
find in draft. -/
theorem promote_promote (hmarked : v.Marked) (hfrozen : v.id = id → v.status ≠ .draft)
    (id' actor' : String) : promote id' actor' (promote id actor v) = promote id' actor' v := by
  rw [Version.promote_eq_ite id' actor', Version.promote_eq_ite id' actor' v, promote_id,
    Version.promote_eq_ite id actor v]
  split
  · split
    · rfl
    · exact v.activated_yielded actor'
  · split
    · next hid => exact Version.yielded_activated hmarked (hfrozen hid) actor
    · exact v.yielded_yielded

/-- The same for all versions. -/
theorem mapVersions_promote_promote (hmarked : ∀ w ∈ s.versions, w.Marked)
    (hfrozen : ∀ w ∈ s.versions, w.id = id → w.status ≠ .draft) (id' actor' : String) :
    (s.mapVersions (promote id actor)).mapVersions (promote id' actor') =
      s.mapVersions (promote id' actor') := by
  rw [mapVersions, mapVersions, List.map_map]
  exact mapVersions_congr fun w hw => promote_promote (hmarked w hw) (hfrozen w hw) id' actor'

/-- **Activating the active version** for the same actor would leave all versions as they are. -/
theorem promote_of_mem_active (hids : (s.versions.map Version.id).Nodup) (hs : s.activeCount ≤ 1)
    (hv : v ∈ s.versions) (hactive : v.status = .active) (hactor : v.activatedBy = some actor) :
    ∀ w ∈ s.versions, promote v.id actor w = w := by
  intro w hw
  by_cases hid : w.id = v.id
  · obtain rfl := List.inj_on_of_nodup_map hids hw hv hid
    rw [promote_of_eq rfl, ← hactive, ← hactor]
  · exact promote_of_ne hid fun hother => hid (id_eq_of_active hs hw hv hother hactive)

/-! ### Runs of activations -/

/-- **What activations make of a ruleset**: nothing, or what one activation makes of it. -/
inductive Reactivated (s : Ruleset) : Ruleset → Prop where
  /-- None of them succeeded. -/
  | same : Reactivated s s
  /-- The last one that succeeded was that of the version with an id, which was no draft. -/
  | promoted {id actor : String} (frozen : ∀ w ∈ s.versions, w.id = id → w.status ≠ .draft) :
      Reactivated s (s.mapVersions (promote id actor))

/-- **One activation more.** -/
theorem Reactivated.step (h : s.Reactivated t) (hids : (s.versions.map Version.id).Nodup)
    (hmarked : ∀ w ∈ s.versions, w.Marked) (hop : op.activates = true)
    (hperf : t.Performed op a t') : s.Reactivated t' := by
  cases hperf with
  | started | approved | edited => cases hop
  | @activated owner id actor u hfound howned happroved =>
    have hu : u ∈ t.versions := List.mem_of_find?_eq_some hfound
    have hid : u.id = id := by simpa using List.find?_some hfound
    cases h with
    | same =>
      refine .promoted fun w hw hwid => ?_
      obtain rfl := List.inj_on_of_nodup_map hids hw hu (hwid.trans hid.symm)
      rw [happroved]
      simp
    | @promoted id' actor' hfrozen =>
      change s.Reactivated ((s.mapVersions (promote id' actor')).mapVersions (promote id actor))
      rw [mapVersions_promote_promote hmarked hfrozen]
      refine .promoted fun w hw hwid hdraft => ?_
      -- A draft was not activated before and is one still, but what is activated is approved.
      have hother : w.id ≠ id' := fun h => hfrozen w hw h hdraft
      obtain ⟨u, hmem, rfl⟩ := List.mem_map.mp hu
      rw [promote_id] at hid
      obtain rfl := List.inj_on_of_nodup_map hids hw hmem (hwid.trans hid.symm)
      rw [promote_of_ne hother (by simp [hdraft]), hdraft] at happroved
      cases happroved

/-- **A run of activations**, with those that fail. -/
theorem Reactivated.after (h : s.Reactivated t) (hids : (s.versions.map Version.id).Nodup)
    (hmarked : ∀ w ∈ s.versions, w.Marked) (hops : ∀ op ∈ ops, op.activates = true) :
    s.Reactivated (t.after ops) := by
  induction ops generalizing t with
  | nil => exact h
  | cons op ops ih =>
    rw [List.forall_mem_cons] at hops
    rw [after_cons]
    refine ih ?_ hops.2
    rcases op.performed_or_eq t with heq | ⟨a, hperf⟩
    · rw [heq]
      exact h
    · exact h.step hids hmarked hops.1 hperf

/-! ### Reachable rulesets -/

theorem Reachable.marked (h : s.Reachable) : ∀ v ∈ s.versions, v.Marked := by
  obtain ⟨input, first, ops, hfirst, hroom, rfl⟩ := h
  have hreach : first.Reachable := ⟨input, first, [], hfirst, trivial, rfl⟩
  exact ((trail_of_create hfirst).after hreach hroom).marked

/-- **A rollback restores the past.** From a reachable ruleset with an active version, let there be
any activations and rollbacks, of whichever versions and by whomever, with or without success, until
that version is not active any more. Rolling back to it, by whom it was activated, then succeeds and
leaves the ruleset that there was. -/
theorem Reachable.rollback_after_activations (h : s.Reachable) (hv : v ∈ s.versions)
    (hactive : v.status = .active) (hactor : v.activatedBy = some actor)
    (hops : ∀ op ∈ ops, op.activates = true)
    (hgone : ∀ w ∈ (s.after ops).versions, w.id = v.id → w.status ≠ .active) :
    (rollback s.id v.id actor).run (s.after ops) = (.ok v, s) := by
  have hids := h.numbered.nodup_ids
  have hback := promote_of_mem_active hids h.activeCount_le_one hv hactive hactor
  have hrun := Reactivated.same.after hids h.marked hops
  generalize s.after ops = t at hgone hrun ⊢
  cases hrun with
  | same => exact absurd hactive (hgone v hv rfl)
  | @promoted id' actor' hfrozen =>
    have hother : v.id ≠ id' := fun hid =>
      hgone _ (List.mem_map_of_mem hv) promote_id (promote_status_eq_active_iff.mpr hid)
    have hfound : (s.mapVersions (promote id' actor')).version? v.id =
        some (promote id' actor' v) :=
      version?_mapVersions_promote (version?_eq_some_of_nodup hids hv)
    have howned : ∀ o, some s.id = some o → (promote id' actor' v).rulesetId = o := by
      rintro o ⟨⟩
      rw [promote_rulesetId, h.numbered.owners v hv]
    have happroved : (promote id' actor' v).status = .approved := by
      rw [promote_of_active hother hactive]
    have hversion : promote v.id actor (promote id' actor' v) = v := by
      rw [promote_promote (h.marked v hv) (hfrozen v hv), hback v hv]
    have hruleset : (s.mapVersions (promote id' actor')).mapVersions (promote v.id actor) = s := by
      rw [mapVersions_promote_promote h.marked hfrozen, mapVersions_congr hback, mapVersions,
        List.map_id']
    exact run_activateFor_eq_ok_iff.mpr
      ⟨_, hfound, howned, happroved, hversion.symm, hruleset.symm⟩

/-- The second version takes the place of the first, twice; in between the first is active again,
but for another actor, and what else is tried is in vain. -/
def disturbances : List Operation :=
  [.activate "rs:v2" "chief", .activate "rs:v2" "lead", .rollback "rs" "rs:v1" "analyst",
   .activate "rs:v9" "chief", .rollback "limits" "rs:v2" "chief", .rollback "rs" "rs:v2" "analyst"]

theorem rollback_after_disturbances :
    (cardFraud.after twoReleases).Reachable ∧
      (((cardFraud.after twoReleases).after disturbances).versions.map
        fun v => (v.id, v.status, v.activatedBy)) =
          [("rs:v1", .approved, none), ("rs:v2", .active, some "analyst")] ∧
      ((rollback "rs" "rs:v1" "lead").run ((cardFraud.after twoReleases).after disturbances)).2 =
        cardFraud.after twoReleases := by
  have hreach : (cardFraud.after twoReleases).Reachable := reachable_after_cardFraud (by decide)
  have hgone : ∀ w ∈ ((cardFraud.after twoReleases).after disturbances).versions,
      w.id = "rs:v1" → w.status ≠ .active := by decide
  have hback := hreach.rollback_after_activations (List.mem_of_getElem? (i := 0) rfl) rfl rfl
    (by decide) hgone
  exact ⟨hreach, rfl, congrArg Prod.snd hback⟩

end Ruleset

end Rulebook
