import Rulebook.Proofs.Ruleset.Entries

/-!
# What an approval does to the check

The check asks more of a version that is frozen than of a draft: none of its rule versions may
be a draft. An approval does not look at the entries, so it can turn a version that the check
accepts into one that it rejects. Here it is said when.

* `Rulebook.Version.valid_freeze_iff` – when a version is still accepted after it was frozen;
* `Rulebook.Ruleset.Reachable.run_approve_eq` – which version an approval freezes;
* `Rulebook.Ruleset.Reachable.check_approved` – what the check says of a version that was
  approved.
-/

namespace Rulebook

namespace Version

variable {v : Version}

/-- **A version that is frozen is still accepted** exactly if no rule version in it is a draft. -/
theorem valid_freeze_iff (h : v.Valid) (actor : String) :
    (v.freeze actor).Valid ↔ ∀ e ∈ v.entries, e.ruleStatus ≠ some .draft := by
  have hfrozen : (v.freeze actor).status ≠ .draft := by simp [freeze]
  constructor
  · intro hvalid
    exact hvalid.reviewed hfrozen
  · intro hreviewed
    exact ⟨h.precedence, h.unarchived, fun _ => hreviewed, h.ruleVersions, h.prioritised,
      h.priorities⟩

/-- **What the check says of a version that was frozen**, if the version was accepted before:
it is accepted again, or the error is that of a draft of a rule version in it. -/
theorem check_freeze (h : v.Valid) (hkept : v.Kept) (actor : String) :
    (v.freeze actor).check =
      if ∀ e ∈ v.entries, e.ruleStatus ≠ some .draft then .ok ()
      else .error (.unacceptable .draftRuleVersion) := by
  split
  · next hreviewed => exact check_eq_ok_iff.mpr ((valid_freeze_iff h actor).mpr hreviewed)
  · next hdraft =>
    rcases hcheck : (v.freeze actor).check with x | u
    · rcases (hkept.freeze actor).fault_cases (fault_of_check_eq_error hcheck) with
        ⟨-, hmode, e, he, hnone⟩ | ⟨rfl, -⟩
      · exact absurd hnone (h.prioritised hmode e he)
      · rfl
    · exact absurd ((valid_freeze_iff h actor).mp (check_eq_ok_iff.mp hcheck)) hdraft

end Version

namespace Ruleset

variable {s s' : Ruleset} {v v' : Version} {actor : String}

/-- **An approval of a version of a reachable ruleset** freezes this version, and no other one
that is found by the same id. -/
theorem Reachable.run_approve_eq (h : s.Reachable) (hv : v ∈ s.versions)
    (hrun : (approve v.id actor).run s = (.ok v', s')) :
    v.status = .draft ∧ v' = v.freeze actor ∧ v' ∈ s'.versions := by
  obtain ⟨pre, u, post, hat, hdraft, rfl, rfl⟩ := run_approve_eq_ok_iff.mp hrun
  have hid : u.id = v.id := by simpa using hat.picked
  have heq : u = v := List.inj_on_of_nodup_map h.numbered.nodup_ids hat.mem hv hid
  rw [heq] at hdraft ⊢
  exact ⟨hdraft, rfl, List.mem_append_right _ List.mem_cons_self⟩

/-- **What the check says of a version that was approved**, if it accepted the draft: it accepts
the approved version exactly if no rule version in it is a draft. Otherwise it reports the
draft. -/
theorem Reachable.check_approved (h : s.Reachable) (hv : v ∈ s.versions) (actor : String)
    (hcheck : v.check = .ok ()) (hrun : (approve v.id actor).run s = (.ok v', s')) :
    v' ∈ s'.versions ∧ v'.status = .approved ∧
      (v'.check = .ok () ↔ ∀ e ∈ v.entries, e.ruleStatus ≠ some .draft) ∧
      ((∃ e ∈ v.entries, e.ruleStatus = some .draft) →
        v'.check = .error (.unacceptable .draftRuleVersion)) := by
  have hvalid := Version.check_eq_ok_iff.mp hcheck
  obtain ⟨-, rfl, hmem⟩ := h.run_approve_eq hv hrun
  refine ⟨hmem, rfl, ?_, ?_⟩
  · rw [Version.check_eq_ok_iff]
    exact Version.valid_freeze_iff hvalid actor
  · rintro ⟨e, he, hdraft⟩
    rw [Version.check_freeze hvalid (h.kept v hv) actor, if_neg]
    exact fun hreviewed => hreviewed e he hdraft

/-- A rule version with a status comes to the first version. -/
def addLimit (status : RuleStatus) : List Operation :=
  [.edit "rs:v1" (.addEntry ⟨"limit:1", "limit", status, false⟩ true (some 1))]

theorem check_approved_reviewed :
    (cardFraud.after (addLimit .approved)).Reachable ∧
      ∃ v v' s', (cardFraud.after (addLimit .approved)).versions = [v] ∧ v.check = .ok () ∧
        (approve v.id "lead").run (cardFraud.after (addLimit .approved)) = (.ok v', s') ∧
        v'.check = .ok () := by
  have hreach : (cardFraud.after (addLimit .approved)).Reachable :=
    reachable_after_cardFraud (by decide)
  refine ⟨hreach, _, _, _, rfl, rfl, rfl, ?_⟩
  obtain ⟨-, -, haccepted, -⟩ := hreach.check_approved List.mem_cons_self "lead" rfl rfl
  refine haccepted.mpr (List.forall_mem_singleton.mpr ?_)
  decide

/-- **An approval freezes what the check then rejects**: the version with the draft of a rule
version is accepted as long as it may be edited, and no longer. -/
theorem check_approved_draft :
    (cardFraud.after (addLimit .draft)).Reachable ∧
      ∃ v v' s', (cardFraud.after (addLimit .draft)).versions = [v] ∧ v.check = .ok () ∧
        (approve v.id "lead").run (cardFraud.after (addLimit .draft)) = (.ok v', s') ∧
        v'.check = .error (.unacceptable .draftRuleVersion) ∧
        s'.check = .error (.unacceptable .draftRuleVersion) :=
  ⟨reachable_after_cardFraud (by decide), _, _, _, rfl, rfl, rfl, rfl, rfl⟩

end Ruleset

end Rulebook
