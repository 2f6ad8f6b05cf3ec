import Rulebook.Proofs.Ruleset.ModeSwitch

/-!
# Adding an entry and checking it

Whether an entry may stand in a version is decided twice: when it is added, by going through the
entries that are there, and when the version is checked, by what is remembered of the entries before
it. For a draft that the check accepts the two decide the same, and for the same reason: adding the
entry fails with the error that the check gives if the entry is put at the end unasked.

* `Rulebook.Version.checkEntries_append` – **the check behind entries that it accepts**;
* `Rulebook.Version.candidate`, `Rulebook.Version.withEntry` – the entry, put at the end unasked;
* `Rulebook.Version.check_withEntry`, `Rulebook.Version.run_addEntry_eq` – what the check and what
  the addition say of it;
* `Rulebook.Version.addEntry_iff_check_candidate` – **that they agree**.
-/

namespace Rulebook

namespace Version

variable {v : Version} {r : RuleVersion} {enabled : Bool} {given : Option Int64} {es : List Entry}
  {ruleVersions : List String} {priorities : List Int64}

/-! ### What the check remembers -/

/-- The priorities that the check remembers of entries, the last one first. -/
def seenPriorities (v : Version) (es : List Entry) : List Int64 :=
  match v.mode with
  | .sequential => (es.filterMap Entry.priority).reverse
  | .parallel => []

/-- The rule versions that the check remembers of entries, the last one first. -/
def seenRuleVersions (es : List Entry) : List String := (es.map Entry.ruleVersionId).reverse

/-- **The check behind entries that it accepts**: all that is left of them is what it remembers. -/
theorem checkEntries_append (h : v.checkEntries ruleVersions priorities es = .ok ())
    (more : List Entry) :
    v.checkEntries ruleVersions priorities (es ++ more) =
      v.checkEntries (seenRuleVersions es ++ ruleVersions) (v.seenPriorities es ++ priorities)
        more := by
  induction es generalizing ruleVersions priorities with
  | nil =>
    have hnone : v.seenPriorities [] = [] := by
      unfold seenPriorities
      cases v.mode <;> rfl
    rw [hnone]
    rfl
  | cons e es ih =>
    obtain ⟨ps, hentry, hes⟩ := checkEntries_cons_eq_ok_iff.mp h
    have hruleVersions : seenRuleVersions (e :: es) ++ ruleVersions =
        seenRuleVersions es ++ e.ruleVersionId :: ruleVersions := by
      simp [seenRuleVersions]
    have hpriorities : v.seenPriorities (e :: es) ++ priorities = v.seenPriorities es ++ ps := by
      obtain ⟨-, -, -, ⟨hmode, rfl⟩ | ⟨p, hmode, hsome, -, rfl⟩⟩ := checkEntry_eq_ok_iff.mp hentry
      · simp [seenPriorities, hmode]
      · simp [seenPriorities, hmode, hsome]
    rw [hruleVersions, hpriorities, ← ih hes, List.cons_append, checkEntries, hentry]
    rfl

theorem checkEntries_singleton (e : Entry) :
    v.checkEntries ruleVersions priorities [e] =
      (v.checkEntry ruleVersions priorities e).map fun _ => () := by
  rw [checkEntries]
  cases v.checkEntry ruleVersions priorities e <;> rfl

/-! ### An entry at the end -/

/-- A version with one more entry, put at the end unasked. -/
def withEntry (v : Version) (e : Entry) : Version := { v with entries := v.entries ++ [e] }

/-- **What the check says of one more entry** at the end of a version that it accepts. -/
theorem check_withEntry (h : v.check = .ok ()) (e : Entry) :
    (v.withEntry e).check =
      (v.checkEntry (seenRuleVersions v.entries) (v.seenPriorities v.entries) e).map
        fun _ => () := by
  obtain ⟨hfits, hentries⟩ := check_eq_ok_iff_checkEntries.mp h
  calc (v.withEntry e).check
      = requirePrecedence v.mode v.precedence >>= fun _ =>
          (v.withEntry e).checkEntries [] [] (v.entries ++ [e]) := rfl
    _ = v.checkEntries [] [] (v.entries ++ [e]) := by
      rw [hfits, @checkEntries_congr v (v.withEntry e) rfl rfl]
      rfl
    _ = v.checkEntries (seenRuleVersions v.entries ++ []) (v.seenPriorities v.entries ++ []) [e] :=
      checkEntries_append hentries [e]
    _ = _ := by rw [List.append_nil, List.append_nil, checkEntries_singleton]

/-- **The entry that is to be added**, with what is given for it: it is archived if its rule is, and
has no priority in a parallel version. -/
def candidate (v : Version) (r : RuleVersion) (enabled : Bool) (given : Option Int64) : Entry :=
  { v.entryFor r enabled (if v.mode = .sequential then given else none) with
    archived := r.archived }

theorem seenRuleVersions_contains (es : List Entry) (id : String) :
    (seenRuleVersions es).contains id = es.any fun e => e.ruleVersionId == id := by
  rw [Bool.eq_iff_iff, List.contains_iff_mem, seenRuleVersions, List.mem_reverse, List.mem_map,
    List.any_eq_true]
  simp only [beq_iff_eq]

/-- In a sequential version a priority is free if the check does not remember it. -/
theorem priorityFree_eq (hmode : v.mode = .sequential) (p : Int64) :
    v.priorityFree p none = !(v.seenPriorities v.entries).contains p := by
  rw [priorityFree, seenPriorities, hmode, Bool.eq_iff_iff]
  simp

/-- **What the check says of the entry** in a draft: the tests of its rule, and then what is said of
the priority that is given. -/
theorem checkEntry_candidate (hdraft : v.status = .draft) (r : RuleVersion) (enabled : Bool)
    (given : Option Int64) :
    (v.checkEntry (seenRuleVersions v.entries) (v.seenPriorities v.entries)
      (v.candidate r enabled given)).map (fun _ => ()) =
        if r.archived = true then .error (.unacceptable .archivedRule)
        else if (v.entries.any fun e => e.ruleVersionId == r.id) = true then
          .error (.conflict .duplicateRuleVersion)
        else (v.newPriority given).map fun _ => () := by
  have hopen : v.isDraft = true := isDraft_iff.mpr hdraft
  have hpriority : (v.candidate r enabled given).priority =
      if v.mode = .sequential then given else none := rfl
  have harchived : (v.candidate r enabled given).archived = r.archived := rfl
  have hruleVersion : (v.candidate r enabled given).ruleVersionId = r.id := rfl
  rw [checkEntry_eq, hopen, harchived, hruleVersion, seenRuleVersions_contains, hpriority]
  split
  · rfl
  · rw [Bool.not_true, Bool.false_and, if_neg Bool.false_ne_true]
    split
    · rfl
    · unfold newPriority
      cases hmode : v.mode with
      | parallel => rfl
      | sequential =>
        cases given with
        | none => rfl
        | some p =>
          simp only [if_true, priorityFree_eq hmode]
          cases (v.seenPriorities v.entries).contains p <;> rfl

/-- What the entry is, if its rule is not archived and the priority that is given will do. -/
theorem candidate_of_newPriority (harchived : r.archived = false) {priority : Option Int64}
    (hgiven : v.newPriority given = .ok priority) :
    v.candidate r enabled given = v.entryFor r enabled priority := by
  rcases newPriority_eq_ok_iff.mp hgiven with ⟨hmode, rfl⟩ | ⟨p, hmode, rfl, rfl, -⟩
  · simp [candidate, entryFor, hmode, harchived]
  · simp [candidate, entryFor, hmode, harchived]

/-- **Adding an entry to a draft** that the check accepts does what the check says of the version
with the entry put at its end. -/
theorem run_addEntry_eq (hdraft : v.status = .draft) (hcheck : v.check = .ok ()) (r : RuleVersion)
    (enabled : Bool) (given : Option Int64) :
    (addEntry r enabled given).run v =
      match (v.withEntry (v.candidate r enabled given)).check with
      | .ok _ => (.ok (v.candidate r enabled given), v.withEntry (v.candidate r enabled given))
      | .error x => (.error x, v) := by
  have hopen : v.isDraft = true := isDraft_iff.mpr hdraft
  have hgate : (v.mode != .parallel || hasPrecedence v.precedence) = true := by
    cases hmode : v.mode with
    | sequential => rfl
    | parallel => rw [(check_eq_ok_iff.mp hcheck).precedence hmode]; rfl
  rw [check_withEntry hcheck, checkEntry_candidate hdraft, addEntry, Edit.run_state_bind,
    Edit.run_require_bind, if_pos hopen, Edit.run_require_bind, if_pos hgate, Edit.run_require_bind,
    Edit.run_require_bind]
  cases harchived : r.archived with
  | true => rfl
  | false =>
    cases v.entries.any fun e => e.ruleVersionId == r.id with
    | true => rfl
    | false =>
      cases hgiven : v.newPriority given with
      | error x => rfl
      | ok priority =>
        rw [candidate_of_newPriority harchived hgiven]
        rfl

/-! ### Both decide the same -/

/-- **Adding an entry and checking it decide the same.** To a draft that the check accepts an entry
can be added exactly if the check accepts the draft with the entry put at its end; and if it cannot,
the error is that of the check. What is left after adding or deleting an entry is accepted again. -/
theorem addEntry_iff_check_candidate (hdraft : v.status = .draft) (hcheck : v.check = .ok ()) :
    (∀ r enabled given,
      ((∃ e v', (addEntry r enabled given).run v = (.ok e, v')) ↔
        (v.withEntry (v.candidate r enabled given)).check = .ok ()) ∧
      (∀ x, (∃ v', (addEntry r enabled given).run v = (.error x, v')) ↔
        (v.withEntry (v.candidate r enabled given)).check = .error x) ∧
      ∀ e v', (addEntry r enabled given).run v = (.ok e, v') →
        v' = v.withEntry (v.candidate r enabled given) ∧ v'.check = .ok ()) ∧
    ∀ id e v', (deleteEntry id).run v = (.ok e, v') → v'.check = .ok () := by
  refine ⟨fun r enabled given => ?_, fun id e v' hrun => ?_⟩
  · rw [run_addEntry_eq hdraft hcheck]
    cases hresult : (v.withEntry (v.candidate r enabled given)).check with
    | error x => simp
    | ok u =>
      refine ⟨by simp, by simp, fun e v' hrun => ?_⟩
      obtain rfl := (Prod.mk.inj hrun).2
      exact ⟨rfl, hresult⟩
  · obtain ⟨-, pre, post, hat, rfl⟩ := run_deleteEntry_eq_ok_iff.mp hrun
    exact check_eq_ok_iff.mpr ((check_eq_ok_iff.mp hcheck).sublist hat.sublist)

/-- A draft with an entry id that comes twice: no edit leads to it, and the check does not mind. -/
def sameEntryIds : Version where
  id := "rs-v1"
  rulesetId := "rs"
  number := 1
  status := .draft
  mode := .sequential
  precedence := none
  createdBy := "editor"
  approvedBy := none
  activatedBy := none
  entries := [⟨"limit", "limit", "limit:1", true, some 1, some .approved, false⟩,
    ⟨"limit", "limit", "limit:2", false, some 2, none, false⟩]

/-- A third version of the rule cannot be added with a priority that is taken, for the check would
not accept it; it can be added with another one. -/
theorem addEntry_sameEntryIds :
    sameEntryIds.check = .ok () ∧
      (∃ v', (addEntry ⟨"limit:3", "limit", .draft, false⟩ true (some 2)).run sameEntryIds =
        (.error (.conflict .priorityTaken), v')) ∧
      (∃ e v', (addEntry ⟨"limit:3", "limit", .draft, false⟩ true (some 3)).run sameEntryIds =
        (.ok e, v')) ∧
      ∀ e v', (deleteEntry "limit").run sameEntryIds = (.ok e, v') → v'.check = .ok () := by
  obtain ⟨hadd, hdelete⟩ := addEntry_iff_check_candidate (v := sameEntryIds) rfl rfl
  refine ⟨rfl, ?_, ?_, hdelete "limit"⟩
  · exact ((hadd ⟨"limit:3", "limit", .draft, false⟩ true (some 2)).2.1 _).mpr rfl
  · exact (hadd ⟨"limit:3", "limit", .draft, false⟩ true (some 3)).1.mpr rfl

end Version

end Rulebook
