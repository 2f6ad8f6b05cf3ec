import Mathlib.Data.List.Forall2
import Rulebook.Proofs.Ruleset.Step
import Rulebook.Proofs.Ruleset.Validity

/-!
# The check does not look at the order

The check goes through the entries of a version, and through the versions of a ruleset, one after
another, and stops at the first that does not fit to those before it. Which one that is depends on
their order. Whether there is one does not: what is asked of a version is asked of single entries
and of pairs of them, the same both ways round, and what is asked of a ruleset is asked of its
versions in the same manner.

* `Rulebook.Version.valid_iff_pairwise`, `Rulebook.Ruleset.activeCount_le_one_iff` – what the check
  accepts, by entries and versions and by pairs of them;
* `Rulebook.Version.Rearranged`, `Rulebook.Ruleset.Rearranged` – the same in another order;
* `Rulebook.Ruleset.check_iff_and_rearranged` – **what the check decides**, in whatever order.
-/

namespace Rulebook

theorem Opaque.isNull_iff {o : Opaque} : o.isNull = true ↔ o.json = .null := by
  unfold isNull
  split
  · next h => exact iff_of_true rfl h
  · next h => exact iff_of_false Bool.false_ne_true h

/-! ### Versions -/

namespace Version

variable {v w : Version}

theorem hasPrecedence_iff {precedence : Option Opaque} :
    hasPrecedence precedence = true ↔ ∃ o, precedence = some o ∧ o.json ≠ .null := by
  simp [hasPrecedence, ← Opaque.isNull_iff, Option.any_eq_true]

/-- **The entries can be run one after another**, by entries and pairs of entries. -/
theorem prioritised_iff_pairwise {es : List Entry} :
    ((∀ e ∈ es, e.priority ≠ none) ∧ (es.filterMap Entry.priority).Nodup) ↔
      (∀ e ∈ es, ∃ p, e.priority = some p) ∧
        es.Pairwise fun d e => d.priority ≠ e.priority := by
  simp only [Option.ne_none_iff_exists']
  refine and_congr_right fun hgiven => List.pairwise_filterMap.trans ?_
  constructor
  · refine List.Pairwise.imp_of_mem fun {d e} hd _ hne hsame => ?_
    obtain ⟨p, hp⟩ := hgiven d hd
    exact hne p hp p (hsame ▸ hp) rfl
  · refine List.Pairwise.imp fun {d e} hne p hp q hq hsame => hne ?_
    rw [hp, hq, hsame]

/-- **What the check accepts**, by entries and pairs of entries. -/
theorem valid_iff_pairwise :
    v.Valid ↔
      (v.mode = .parallel → ∃ o, v.precedence = some o ∧ o.json ≠ .null) ∧
      (∀ e ∈ v.entries, e.archived = false) ∧
      (v.status ≠ .draft → ∀ e ∈ v.entries, e.ruleStatus ≠ some .draft) ∧
      (v.entries.Pairwise fun d e => d.ruleVersionId ≠ e.ruleVersionId) ∧
      (v.mode = .sequential → (∀ e ∈ v.entries, ∃ p, e.priority = some p) ∧
        v.entries.Pairwise fun d e => d.priority ≠ e.priority) := by
  rw [← hasPrecedence_iff, ← prioritised_iff_pairwise]
  constructor
  · intro h
    exact ⟨h.precedence, h.unarchived, h.reviewed, List.pairwise_map.mp h.ruleVersions,
      fun hmode => ⟨h.prioritised hmode, h.priorities hmode⟩⟩
  · rintro ⟨hfits, hunarchived, hreviewed, hruleVersions, hprioritised⟩
    exact ⟨hfits, hunarchived, hreviewed, List.pairwise_map.mpr hruleVersions,
      fun hmode => (hprioritised hmode).1, fun hmode => (hprioritised hmode).2⟩

/-- **The same version** with its entries in another order. -/
structure Rearranged (v w : Version) : Prop where
  /-- All but the entries is the same. -/
  rest : w = { v with entries := w.entries }
  /-- It has the same entries, each as often. -/
  entries : w.entries.Perm v.entries

theorem Rearranged.symm (h : v.Rearranged w) : w.Rearranged v := by
  obtain ⟨hrest, hentries⟩ := h
  refine ⟨?_, hentries.symm⟩
  rw [hrest]

theorem Rearranged.status_eq (h : v.Rearranged w) : w.status = v.status := by
  rw [h.rest]

theorem Rearranged.rulesetId_eq (h : v.Rearranged w) : w.rulesetId = v.rulesetId := by
  rw [h.rest]

theorem Valid.of_rearranged (hv : v.Valid) (h : v.Rearranged w) : w.Valid := by
  obtain ⟨hrest, hentries⟩ := h
  rw [hrest]
  exact {
    precedence := hv.precedence
    unarchived := fun e he => hv.unarchived e (hentries.mem_iff.mp he)
    reviewed := fun hfrozen e he => hv.reviewed hfrozen e (hentries.mem_iff.mp he)
    ruleVersions := ((hentries.map _).nodup_iff).mpr hv.ruleVersions
    prioritised := fun hmode e he => hv.prioritised hmode e (hentries.mem_iff.mp he)
    priorities := fun hmode => ((hentries.filterMap _).nodup_iff).mpr (hv.priorities hmode) }

/-- **The order of the entries does not matter** to what the check accepts. -/
theorem Rearranged.valid_iff (h : v.Rearranged w) : w.Valid ↔ v.Valid :=
  ⟨fun hw => hw.of_rearranged h.symm, fun hv => hv.of_rearranged h⟩

end Version

/-! ### Rulesets -/

namespace Ruleset

variable {s t : Ruleset}

/-- **At most one version is active**, by pairs of versions. -/
theorem activeCount_le_one_iff : s.activeCount ≤ 1 ↔
    s.versions.Pairwise fun v w => v.status = .active → w.status ≠ .active := by
  unfold activeCount
  induction s.versions with
  | nil => simp
  | cons v vs ih =>
    rw [List.pairwise_cons, ← ih]
    by_cases hactive : v.status = .active
    · have hnone : vs.countP (fun w => w.status == .active) = 0 ↔ ∀ w ∈ vs, w.status ≠ .active := by
        simp [List.countP_eq_zero]
      simp only [hactive, forall_const, ← hnone, List.countP_cons, beq_self_eq_true, if_true]
      omega
    · simp [hactive]

/-- **The same ruleset** with its versions in another order, and the entries of each. -/
structure Rearranged (s t : Ruleset) : Prop where
  /-- All but the versions is the same. -/
  rest : t = { s with versions := t.versions }
  /-- It has the same versions but for the order of the entries, each as often. -/
  versions : ∃ vs : List Version, vs.Perm s.versions ∧
    List.Forall₂ Version.Rearranged vs t.versions

variable {vs ws : List Version}

/-- The versions are accepted on both sides, or on neither. -/
theorem forall_valid_iff_of_rearranged {id : String} (h : List.Forall₂ Version.Rearranged vs ws) :
    (∀ w ∈ ws, w.rulesetId = id ∧ w.Valid) ↔ ∀ v ∈ vs, v.rulesetId = id ∧ v.Valid := by
  induction h with
  | nil => simp
  | cons hhead _ ih =>
    rw [List.forall_mem_cons, List.forall_mem_cons, ih, hhead.valid_iff, hhead.rulesetId_eq]

/-- As many of them are active on both sides. -/
theorem countP_active_of_rearranged (h : List.Forall₂ Version.Rearranged vs ws) :
    (ws.countP fun w => w.status == .active) = vs.countP fun v => v.status == .active := by
  induction h with
  | nil => rfl
  | cons hhead _ ih => rw [List.countP_cons, List.countP_cons, ih, hhead.status_eq]

/-- **The order of the versions, and of the entries of each, does not matter** to what the check
accepts. -/
theorem Rearranged.check_iff (h : s.Rearranged t) : t.check = .ok () ↔ s.check = .ok () := by
  obtain ⟨hrest, vs, hperm, hvs⟩ := h
  have hid : t.id = s.id := by rw [hrest]
  have hcount : t.activeCount = s.activeCount :=
    (countP_active_of_rearranged hvs).trans (hperm.countP_eq _)
  rw [check_eq_ok_iff, check_eq_ok_iff, hcount, hid, forall_valid_iff_of_rearranged hvs]
  simp only [hperm.mem_iff]

/-- **What the check decides**, in whatever order. A version is accepted exactly if it has a
precedence should it be parallel, no rule is archived, no draft of a rule version stands in it
unless it is a draft itself, no two entries have the same rule version, and, should it be
sequential, all entries have priorities, no two of them the same. A ruleset is accepted exactly if
its versions belong to it and are accepted, and no two of them are active. Other orders of the
entries and of the versions change nothing about it. -/
theorem check_iff_and_rearranged (v : Version) (s : Ruleset) :
    (v.check = .ok () ↔
      (v.mode = .parallel → ∃ o, v.precedence = some o ∧ o.json ≠ .null) ∧
      (∀ e ∈ v.entries, e.archived = false) ∧
      (v.status ≠ .draft → ∀ e ∈ v.entries, e.ruleStatus ≠ some .draft) ∧
      (v.entries.Pairwise fun d e => d.ruleVersionId ≠ e.ruleVersionId) ∧
      (v.mode = .sequential → (∀ e ∈ v.entries, ∃ p, e.priority = some p) ∧
        v.entries.Pairwise fun d e => d.priority ≠ e.priority)) ∧
    (s.check = .ok () ↔
      (∀ w ∈ s.versions, w.rulesetId = s.id ∧ w.check = .ok ()) ∧
      s.versions.Pairwise fun w w' => w.status = .active → w'.status ≠ .active) ∧
    (∀ w, v.Rearranged w → (w.check = .ok () ↔ v.check = .ok ())) ∧
    ∀ t, s.Rearranged t → (t.check = .ok () ↔ s.check = .ok ()) := by
  refine ⟨?_, ?_, fun w hw => ?_, fun t ht => ht.check_iff⟩
  · rw [Version.check_eq_ok_iff, Version.valid_iff_pairwise]
  · rw [check_eq_ok_iff, activeCount_le_one_iff]
    simp only [Version.check_eq_ok_iff]
  · rw [Version.check_eq_ok_iff, Version.check_eq_ok_iff, hw.valid_iff]

/-- An entry for a version of the rule `limit`. -/
def limitEntry (number : String) (priority : Option Int64) : Entry :=
  ⟨"limit:" ++ number, "limit", "limit:" ++ number, true, priority, some .approved, false⟩

/-- An active version with some entries. -/
def inForce (entries : List Entry) : Version :=
  { firstVersion cardFraudInput with status := .active, entries }

/-- A parallel draft with some entries. -/
def inWork (entries : List Entry) : Version :=
  { firstVersion cardFraudInput with
    mode := .parallel, precedence := some (.ofJson (.string "BLOCK")), entries }

/-- An active version with its entries turned about, alone and behind a draft that it stood in front
of. -/
theorem check_of_turnedAbout :
    (inForce [limitEntry "1" (some 2), limitEntry "2" (some 1)]).check = .ok () ∧
    (inForce [limitEntry "2" (some 1), limitEntry "1" (some 2)]).check = .ok () ∧
    ({ cardFraud with versions := [inForce [limitEntry "1" (some 2), limitEntry "2" (some 1)],
      inWork [limitEntry "2" none]] } : Ruleset).check = .ok () ∧
    ({ cardFraud with versions := [inWork [limitEntry "2" none],
      inForce [limitEntry "2" (some 1), limitEntry "1" (some 2)]] } : Ruleset).check = .ok () := by
  have hversion : (inForce [limitEntry "1" (some 2), limitEntry "2" (some 1)]).check = .ok () := rfl
  have hruleset : ({ cardFraud with
      versions := [inForce [limitEntry "1" (some 2), limitEntry "2" (some 1)],
        inWork [limitEntry "2" none]] } : Ruleset).check = .ok () := rfl
  obtain ⟨-, -, hturned, hmoved⟩ := check_iff_and_rearranged
    (inForce [limitEntry "1" (some 2), limitEntry "2" (some 1)])
    { cardFraud with versions := [inForce [limitEntry "1" (some 2), limitEntry "2" (some 1)],
      inWork [limitEntry "2" none]] }
  refine ⟨hversion, (hturned _ ⟨rfl, .swap _ _ _⟩).mpr hversion, hruleset, ?_⟩
  refine (hmoved _ ⟨rfl, _, .swap _ _ _, ?_⟩).mpr hruleset
  exact .cons ⟨rfl, .refl _⟩ (.cons ⟨rfl, .swap _ _ _⟩ .nil)

end Ruleset

end Rulebook
