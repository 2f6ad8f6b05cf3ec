import Mathlib.Data.List.Nodup
import Rulebook.Proofs.Ruleset.Ids
import Rulebook.Proofs.Ruleset.Step

/-!
# How the versions of a ruleset are numbered

A version carries a **label** – its id, the ruleset it belongs to and its number – that is given
to it when it is made. No later step changes a label, so all that is to be known about labels
is what a new version gets: the number that follows the highest one there is.

* `Rulebook.Ruleset.Performed.labels_eq` – what a step makes of the labels;
* `Rulebook.Ruleset.Numbered` – the versions are numbered from one on, without gaps, and labelled
  accordingly;
* `Rulebook.Ruleset.Reachable.numbered` – which is so in every reachable ruleset;
* `Rulebook.Ruleset.Numbered.nodup_ids` – so that no two versions have the same id.
-/

namespace Rulebook

/-- What a version is known by: its id, the ruleset it belongs to, and its number. -/
def Version.label (v : Version) : String × String × UInt32 := (v.id, v.rulesetId, v.number)

theorem Version.label_eq_iff {v w : Version} :
    v.label = w.label ↔ v.id = w.id ∧ v.rulesetId = w.rulesetId ∧ v.number = w.number := by
  simp [label]

namespace Ruleset

/-- The labels of the versions. -/
def labels (s : Ruleset) : List (String × String × UInt32) := s.versions.map Version.label

variable {s s' : Ruleset} {op : Operation} {a : Answer}

/-- **No step changes a label.** One that starts a version only adds the label of that one. -/
theorem Performed.labels_eq (h : s.Performed op a s') (hop : op.startsVersion = false) :
    s'.id = s.id ∧ s'.labels = s.labels := by
  cases h with
  | started hfound hfits => cases hop
  | @approved id actor pre post v hat hdraft =>
    have hlabel : (v.freeze actor).label = v.label := rfl
    exact ⟨rfl, by simp [labels, hat.eq, hlabel]⟩
  | @activated owner id actor v hfound howned hfrozen =>
    have hlabel : ∀ w : Version, (promote id actor w).label = w.label := by
      simp [Version.label]
    exact ⟨rfl, by simp [labels, Function.comp_def, hlabel]⟩
  | @edited id e answer pre post v v' hat hedit =>
    have hlabel : v'.label = v.label :=
      Version.label_eq_iff.mpr ⟨hedit.id_eq, hedit.rulesetId_eq, hedit.number_eq⟩
    exact ⟨rfl, by simp [labels, hat.eq, hlabel]⟩

theorem ids_eq_map_labels (s : Ruleset) : s.versions.map Version.id = s.labels.map Prod.fst := by
  simp [labels, Version.label]

/-- A step that starts no version leaves the ids as they are. -/
theorem Performed.ids_eq (h : s.Performed op a s') (hop : op.startsVersion = false) :
    s'.versions.map Version.id = s.versions.map Version.id := by
  rw [ids_eq_map_labels, (h.labels_eq hop).2, ← ids_eq_map_labels]

/-- A label that is kept is that of a version on both sides. -/
theorem exists_mem_of_labels_eq (h : s'.labels = s.labels) {v : Version} (hv : v ∈ s'.versions) :
    ∃ w ∈ s.versions, w.id = v.id ∧ w.rulesetId = v.rulesetId ∧ w.number = v.number := by
  have hlabel : v.label ∈ s.labels := h ▸ List.mem_map_of_mem hv
  obtain ⟨w, hw, heq⟩ := List.mem_map.mp hlabel
  exact ⟨w, hw, Version.label_eq_iff.mp heq⟩

/-! ### Consecutive numbers -/

/-- **The versions are numbered** from one on, without gaps, and their ids and the ruleset they
name are those that go with their numbers. -/
structure Numbered (s : Ruleset) : Prop where
  /-- The numbers go up from one by one. -/
  numbers : s.versions.map (fun v => v.number.toNat) = List.range' 1 s.versions.length
  /-- The id of a version is made from its number. -/
  ids : ∀ v ∈ s.versions, v.id = Version.idOf s.id v.number
  /-- A version belongs to the ruleset. -/
  owners : ∀ v ∈ s.versions, v.rulesetId = s.id

/-- It is a matter of the labels alone. -/
theorem Numbered.of_labels_eq (h : s.Numbered) (hid : s'.id = s.id)
    (hlabels : s'.labels = s.labels) : s'.Numbered := by
  have hlength : s'.versions.length = s.versions.length := by
    simpa [labels] using congrArg List.length hlabels
  refine ⟨?_, fun v hv => ?_, fun v hv => ?_⟩
  · have hnumbers : ∀ t : Ruleset, t.versions.map (fun v => v.number.toNat) =
        t.labels.map fun l => l.2.2.toNat := by
      simp [labels, Version.label]
    rw [hnumbers, hlabels, ← hnumbers, h.numbers, hlength]
  · obtain ⟨w, hw, hwid, -, hwnumber⟩ := exists_mem_of_labels_eq hlabels hv
    rw [← hwid, ← hwnumber, hid, h.ids w hw]
  · obtain ⟨w, hw, -, howner, -⟩ := exists_mem_of_labels_eq hlabels hv
    rw [← howner, hid, h.owners w hw]

/-- The latest version of a numbered ruleset is numbered by how many versions there are. -/
theorem Numbered.latest_number (h : s.Numbered) {latest : Version}
    (hfound : s.latest? = some latest) : latest.number.toNat = s.versions.length := by
  obtain ⟨hmem, hmax⟩ := latest?_eq_some hfound
  have hle : latest.number.toNat ≤ s.versions.length := by
    have hnumber : latest.number.toNat ∈ List.range' 1 s.versions.length :=
      h.numbers ▸ List.mem_map_of_mem (f := fun v => v.number.toNat) hmem
    have := List.mem_range'_1.mp hnumber
    omega
  have hlast : s.versions.length ∈ s.versions.map fun v => v.number.toNat := by
    have hpos := List.length_pos_of_mem hmem
    rw [h.numbers, List.mem_range'_1]
    omega
  obtain ⟨w, hw, hnumber⟩ := List.mem_map.mp hlast
  have hge : w.number.toNat ≤ latest.number.toNat := UInt32.le_iff_toNat_le.mp (hmax w hw)
  omega

theorem numbered_of_create {input : NewRuleset} (h : create input = .ok s) : s.Numbered := by
  obtain ⟨-, rfl⟩ := create_eq_ok_iff.mp h
  refine ⟨rfl, fun v hv => ?_, fun v hv => ?_⟩
  · obtain rfl := List.mem_singleton.mp hv
    rfl
  · obtain rfl := List.mem_singleton.mp hv
    rfl

/-- A version that is started gets a number of its own. -/
theorem Numbered.successor_number (h : s.Numbered) (hroom : s.HasRoom) {latest : Version}
    (hfound : s.latest? = some latest) (createdBy : String) :
    (s.successor latest createdBy).number.toNat = s.versions.length + 1 := by
  rw [toNat_successor_number hroom (latest?_eq_some hfound).1, h.latest_number hfound]

/-- **Every step keeps the numbering**, as long as there is room for a version that it starts. -/
theorem Numbered.step (h : s.Numbered) (hroom : op.startsVersion = true → s.HasRoom)
    (hperf : s.Performed op a s') : s'.Numbered := by
  by_cases hop : op.startsVersion = true
  · obtain ⟨createdBy, latest, hfound, -, rfl⟩ := hperf.of_startsVersion hop
    have hnumber := h.successor_number (hroom hop) hfound createdBy
    refine ⟨?_, fun v hv => ?_, fun v hv => ?_⟩
    · simp [h.numbers, hnumber, List.range'_concat, Nat.add_comm]
    · rcases List.mem_append.mp hv with hv | hv
      · exact h.ids v hv
      · obtain rfl := List.mem_singleton.mp hv
        rfl
    · rcases List.mem_append.mp hv with hv | hv
      · exact h.owners v hv
      · obtain rfl := List.mem_singleton.mp hv
        rfl
  · obtain ⟨hid, hlabels⟩ := hperf.labels_eq (by simpa using hop)
    exact h.of_labels_eq hid hlabels

theorem Reachable.numbered (h : s.Reachable) : s.Numbered :=
  h.induction (fun _ _ => numbered_of_create) fun _ _ _ _ hs hroom hperf => hs.step hroom hperf

/-- The version at a place has the number that follows the place. -/
theorem Numbered.number_getElem (h : s.Numbered) (i : Nat) (hi : i < s.versions.length) :
    s.versions[i].number.toNat = i + 1 := by
  have hget : (s.versions.map fun v => v.number.toNat)[i]? =
      (List.range' 1 s.versions.length)[i]? := by
    rw [h.numbers]
  rw [List.getElem?_map, List.getElem?_eq_getElem hi, List.getElem?_range' hi] at hget
  have hnumber : s.versions[i].number.toNat = 1 + 1 * i := Option.some.inj hget
  omega

/-- Different versions have different numbers. -/
theorem Numbered.pairwise_number_ne (h : s.Numbered) :
    s.versions.Pairwise fun v w => v.number ≠ w.number := by
  have hnodup : (s.versions.map fun v => v.number.toNat).Nodup := h.numbers ▸ List.nodup_range'
  rw [List.nodup_iff_pairwise_ne, List.pairwise_map] at hnodup
  exact hnodup.imp fun hne heq => hne (congrArg UInt32.toNat heq)

/-- **No two versions have the same id.** -/
theorem Numbered.nodup_ids (h : s.Numbered) : (s.versions.map Version.id).Nodup := by
  rw [List.nodup_iff_pairwise_ne, List.pairwise_map]
  refine h.pairwise_number_ne.imp_of_mem fun {v w} hv hw hne => ?_
  rw [h.ids v hv, h.ids w hw]
  exact fun hid => hne (Version.idOf_inj.mp hid)

/-- If no two versions have the same id, a version is found by its id. -/
theorem version?_eq_some_of_nodup (hids : (s.versions.map Version.id).Nodup) {v : Version}
    (hv : v ∈ s.versions) : s.version? v.id = some v := by
  obtain ⟨pre, post, hat, -⟩ := exists_firstAt_of_nodup hids hv
  exact hat.find?_eq

/-- **The id of a version that is started is new**, also past the last number, where counting
begins again at zero. -/
theorem Numbered.id_ne_successor (h : s.Numbered) {latest v : Version}
    (hfound : s.latest? = some latest) (hv : v ∈ s.versions) (createdBy : String) :
    v.id ≠ (s.successor latest createdBy).id := by
  rw [h.ids v hv]
  intro hid
  have hnumber : v.number = latest.number + 1 := Version.idOf_inj.mp hid
  have hle : v.number.toNat ≤ latest.number.toNat :=
    UInt32.le_iff_toNat_le.mp ((latest?_eq_some hfound).2 v hv)
  have hpos : 1 ≤ v.number.toNat := by
    have hmem : v.number.toNat ∈ List.range' 1 s.versions.length :=
      h.numbers ▸ List.mem_map_of_mem (f := fun v => v.number.toNat) hv
    exact (List.mem_range'_1.mp hmem).1
  have hlt : latest.number.toNat < 2 ^ 32 := latest.number.toNat_lt
  have hnext : v.number.toNat = (latest.number.toNat + 1) % 2 ^ 32 := by
    rw [hnumber, UInt32.toNat_add]
    rfl
  omega

end Ruleset

end Rulebook
