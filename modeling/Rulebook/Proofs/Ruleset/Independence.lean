import Rulebook.Proofs.Ruleset.Effect

/-!
# Operations that do not interfere

Operations addressed to different versions can be done in either order, with one activation among
them. The one to which an activation gives way is no draft, before and after, and so refuses what
the other operation asks of it in both cases; all else the two operations leave to each other.
Starting a version can change places with what is addressed to a version that is there, as long as
that is not an edit of the one that the new version is made from.

* `Rulebook.Ruleset.Independent` – operations that can be done in either order;
* `Rulebook.Ruleset.independent_of_id_ne`, `Rulebook.Ruleset.independent_newVersion` – two that are
  addressed to different versions, and one of them with the start of a version;
* `Rulebook.Ruleset.Reachable.independent_of_target_ne` – **which ones can**.
-/

namespace Rulebook

namespace Ruleset

variable {s : Ruleset} {v w : Version} {p q : Operation} {createdBy : String}

/-! ### Either order -/

/-- **Operations that can be done in either order**: each of them answers the same, whether it
comes first or second, and the ruleset that is left is the same. -/
structure Independent (s : Ruleset) (p q : Operation) : Prop where
  /-- What the first answers. -/
  left : (p.perform.run (q.perform.run s).2).1 = (p.perform.run s).1
  /-- What the second answers. -/
  right : (q.perform.run (p.perform.run s).2).1 = (q.perform.run s).1
  /-- What is left. -/
  state : (q.perform.run (p.perform.run s).2).2 = (p.perform.run (q.perform.run s).2).2

theorem nodup_ids_mapVersions (hids : (s.versions.map Version.id).Nodup) {f : Version → Version}
    (hf : ∀ w, (f w).id = w.id) : ((s.mapVersions f).versions.map Version.id).Nodup := by
  have hsame : s.versions.map (Version.id ∘ f) = s.versions.map Version.id :=
    List.map_congr_left fun w _ => hf w
  rwa [mapVersions, List.map_map, hsame]

/-- **Operations addressed to different versions** can be done in either order, if one of them is
no activation. -/
theorem independent_of_id_ne (hids : (s.versions.map Version.id).Nodup) (hv : v ∈ s.versions)
    (hw : w ∈ s.versions) (hne : v.id ≠ w.id) (hp : p.target? = some v.id)
    (hq : q.target? = some w.id) (hpassive : q.activates = false) : s.Independent p q := by
  have hprun := Operation.run_perform_eq hids hv hp
  have hqrun := Operation.run_perform_eq hids hw hq
  -- The second leaves the version of the first alone.
  have hv' : v ∈ (s.mapVersions (q.effect w)).versions :=
    List.mem_map.mpr ⟨v, hv, Operation.effect_of_passive hpassive hne⟩
  have hpafter := Operation.run_perform_eq
    (nodup_ids_mapVersions hids (Operation.effect_id hq)) hv' hp
  -- The version of the second may have to give way, but answers the same all the same.
  have hw' : p.effect v w ∈ (s.mapVersions (p.effect v)).versions := List.mem_map_of_mem hw
  have hid : (p.effect v w).id = w.id := Operation.effect_id hp w
  have hqafter := Operation.run_perform_eq
    (nodup_ids_mapVersions hids (Operation.effect_id hp)) hw' (hid.symm ▸ hq)
  have hown : ∀ u : Version, u.id = w.id →
      q.own.run (p.effect v u) = ((q.own.run u).1, p.effect v (q.own.run u).2) := by
    intro u hu
    have htarget : q.target? = some u.id := hu.symm ▸ hq
    have hun : u.id ≠ v.id := fun h => hne (h.symm.trans hu)
    have hafter : (q.own.run u).2.id ≠ v.id := by
      rwa [(Version.label_eq_iff.mp (Operation.own_label htarget)).1]
    rcases Operation.effect_eq_or_yielded p v with hsame | hyielded
    · rw [hsame u hun, hsame _ hafter]
    · rw [hyielded u hun, hyielded _ hafter, Operation.run_own_yielded hpassive htarget]
  have heach : ∀ u : Version, q.effect (p.effect v w) (p.effect v u) =
      p.effect v (q.effect w u) := by
    intro u
    by_cases hu : u.id = w.id
    · have hu' : (p.effect v u).id = (p.effect v w).id := by
        rw [Operation.effect_id hp, Operation.effect_id hp, hu]
      rw [Operation.effect_of_id_eq hu', Operation.effect_of_id_eq hu, hown u hu]
    · have hu' : (p.effect v u).id ≠ (p.effect v w).id := by
        rwa [Operation.effect_id hp, Operation.effect_id hp]
      rw [Operation.effect_of_passive hpassive hu', Operation.effect_of_passive hpassive hu]
  refine ⟨?_, ?_, ?_⟩
  · rw [hqrun, hpafter, hprun]
  · rw [hprun, hqafter, hqrun, hown w rfl]
  · rw [hprun, hqrun, hqafter, hpafter]
    simp only [mapVersions, List.map_map, Function.comp_def, heach]

/-- **Starting a version and an operation addressed to one that is there** can be done in either
order, if the id of the new version is new and the operation leaves what it is made from alone. -/
theorem independent_newVersion (hids : (s.versions.map Version.id).Nodup) (hv : v ∈ s.versions)
    (hp : p.target? = some v.id)
    (hfresh : ∀ u ∈ (s.started createdBy).toOption.toList, u.status = .draft ∧
      ∀ w ∈ s.versions, w.id ≠ u.id)
    (hpattern : s.latest?.map (fun u => (p.effect v u).pattern) = s.latest?.map Version.pattern) :
    s.Independent (.newVersion createdBy) p := by
  have hrun : ∀ t : Ruleset, (Operation.newVersion createdBy).perform.run t =
      ((t.started createdBy).map Answer.version,
        t.addVersions (t.started createdBy).toOption.toList) := by
    intro t
    rw [Operation.perform, Edit.run_map, run_newVersion_eq]
    cases t.started createdBy <;> rfl
  have hstarted : (s.mapVersions (p.effect v)).started createdBy = s.started createdBy := by
    refine started_congr (s := s) (t := s.mapVersions (p.effect v)) rfl ?_ createdBy
    rw [latest?_mapVersions fun u => (Version.label_eq_iff.mp (Operation.effect_label hp u)).2.2,
      Option.map_map]
    exact hpattern
  have hgrown : ((s.addVersions (s.started createdBy).toOption.toList).versions.map
      Version.id).Nodup := by
    rw [addVersions, List.map_append, List.nodup_append']
    refine ⟨hids, ?_, fun id hold hnew => ?_⟩
    · cases (s.started createdBy).toOption <;> simp
    · obtain ⟨w, hw, rfl⟩ := List.mem_map.mp hold
      obtain ⟨u, hu, hid⟩ := List.mem_map.mp hnew
      exact (hfresh u hu).2 w hw hid.symm
  have hadded : (s.started createdBy).toOption.toList.map (p.effect v) =
      (s.started createdBy).toOption.toList := by
    rw [List.map_congr_left fun u hu => Operation.effect_of_draft (hfresh u hu).1
      (Ne.symm ((hfresh u hu).2 v hv)), List.map_id']
  have hprun := Operation.run_perform_eq hids hv hp
  have hpafter := Operation.run_perform_eq hgrown (List.mem_append_left _ hv) hp
  refine ⟨?_, ?_, ?_⟩
  · rw [hprun, hrun, hstarted, hrun]
  · rw [hrun, hpafter, hprun]
  · rw [hrun, hpafter, hprun, hrun, hstarted]
    simp only [mapVersions, addVersions, List.map_append, hadded]

end Ruleset

/-- Whether an operation edits a version: its settings or its entries. -/
def Operation.edits : Operation → Bool
  | .edit _ _ => true
  | _ => false

/-- Only an edit touches what new versions are made from. -/
theorem Operation.pattern_effect {op : Operation} {v : Version} (hop : op.edits = false)
    (htarget : op.target? = some v.id) (w : Version) : (op.effect v w).pattern = w.pattern := by
  have hyielded : w.yielded.pattern = w.pattern := by
    unfold Version.yielded
    split <;> rfl
  by_cases hid : w.id = v.id
  · rw [effect_of_id_eq hid]
    rcases eq_or_became_own (hid ▸ htarget) with heq | hbecame
    · rw [heq]
    · generalize hafter : (op.own.run w).2 = w' at hbecame
      cases hbecame with
      | same => rfl
      | frozen => rfl
      | activated => rfl
      | yielded => exact hyielded
      | edited => cases hop
  · rcases effect_eq_or_yielded op v with hsame | hgiven
    · rw [hsame w hid]
    · rw [hgiven w hid, hyielded]

namespace Ruleset

variable {s : Ruleset}

/-- **Which operations can be done in either order** in a reachable ruleset, whether they succeed
or fail: two that are addressed to different versions, if one of them is no activation; and
starting a version with what is addressed to a version that is there, if it is no edit of the
latest one. -/
theorem Reachable.independent_of_target_ne (h : s.Reachable) :
    (∀ v ∈ s.versions, ∀ w ∈ s.versions, v ≠ w → ∀ p q : Operation,
      p.target? = some v.id → q.target? = some w.id → q.activates = false → s.Independent p q) ∧
    ∀ createdBy, ∀ v ∈ s.versions, ∀ p : Operation, p.target? = some v.id →
      (s.latest? = some v → p.edits = false) → s.Independent (.newVersion createdBy) p := by
  have hids := h.numbered.nodup_ids
  refine ⟨fun v hv w hw hne p q hp hq hpassive => ?_, fun createdBy v hv p hp hlatest => ?_⟩
  · have hid : v.id ≠ w.id := fun heq => hne (List.inj_on_of_nodup_map hids hv hw heq)
    exact independent_of_id_ne hids hv hw hid hp hq hpassive
  · refine independent_newVersion hids hv hp (fun u hu => ?_) ?_
    · obtain ⟨latest, hfound, rfl⟩ := mem_started hu
      exact ⟨rfl, fun w hw => h.numbered.id_ne_successor hfound hw createdBy⟩
    · cases hop : p.edits with
      | false =>
        simp only [Operation.pattern_effect hop hp]
      | true =>
        have hpassive : p.activates = false := by
          cases p with
          | edit => rfl
          | _ => cases hop
        refine Option.map_congr fun l hl => ?_
        have hne : l.id ≠ v.id := by
          intro hid
          have heq := List.inj_on_of_nodup_map hids (latest?_eq_some hl).1 hv hid
          rw [hlatest (heq ▸ hl)] at hop
          cases hop
        rw [Operation.effect_of_passive hpassive hne]

/-- The first version is active, the second approved and the third a draft. -/
def threeStages : List Operation := twoReleases ++ [.newVersion "analyst"]

/-- The first version is edited in vain, be it active or not any more; the third is edited with
success; and a fourth is made from the third. -/
theorem independent_of_activation :
    (cardFraud.after threeStages).Reachable ∧
      (cardFraud.after threeStages).Independent (.activate "rs:v2" "chief")
        (.edit "rs:v1" (.deleteEntry "rs:v1:limit:1")) ∧
      (cardFraud.after threeStages).Independent (.activate "rs:v2" "chief")
        (.edit "rs:v3" (.deleteEntry "rs:v3:limit:1")) ∧
      (cardFraud.after threeStages).Independent (.newVersion "analyst")
        (.approve "rs:v3" "lead") := by
  have hreach : (cardFraud.after threeStages).Reachable := reachable_after_cardFraud (by decide)
  obtain ⟨hapart, hstart⟩ := hreach.independent_of_target_ne
  have hne : ∀ {v w : Version}, v.id ≠ w.id → v ≠ w := fun h heq => h (congrArg Version.id heq)
  refine ⟨hreach, ?_, ?_, ?_⟩
  · exact hapart _ (List.mem_of_getElem? (i := 1) rfl) _ (List.mem_of_getElem? (i := 0) rfl)
      (hne (by decide)) _ _ rfl rfl rfl
  · exact hapart _ (List.mem_of_getElem? (i := 1) rfl) _ (List.mem_of_getElem? (i := 2) rfl)
      (hne (by decide)) _ _ rfl rfl rfl
  · exact hstart "analyst" _ (List.mem_of_getElem? (i := 2) rfl) _ rfl fun _ => rfl

end Ruleset

end Rulebook
