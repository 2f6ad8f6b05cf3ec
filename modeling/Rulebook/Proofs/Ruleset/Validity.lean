import Mathlib.Data.List.Nodup
import Rulebook.Proofs.Ruleset.VersionStep
import Rulebook.Ruleset.Check

/-!
# What the check accepts

The check of a version goes through the entries once and remembers what it has seen. Here is
what it decides, said without the memory: a list of conditions for what it accepts, and a list
of faults for what it reports when it does not.

* `Rulebook.Version.Valid` – the conditions, and `Rulebook.Version.check_eq_ok_iff` – that they
  are what the check accepts;
* `Rulebook.Version.Fault` – the faults, and `Rulebook.Version.fault_of_check_eq_error` – that an
  error of the check names one;
* `Rulebook.Ruleset.check_eq_ok_iff`, `Rulebook.Ruleset.fault_of_check_eq_error` – the same for
  rulesets.
-/

namespace Rulebook

namespace Version

variable {v : Version} {before es : List Entry} {e : Entry} {ruleVersions : List String}
  {priorities ps : List Int64} {x : RuleError}

/-! ### One entry -/

/-- **What can be wrong with an entry** that stands in a version behind other entries, and the
error that says so. -/
inductive EntryFault (v : Version) (before : List Entry) (e : Entry) : RuleError → Prop where
  /-- Its rule is archived. -/
  | archived (archived : e.archived = true) : EntryFault v before e (.unacceptable .archivedRule)
  /-- Its rule version is a draft, and the version is none. -/
  | draft (frozen : v.status ≠ .draft) (draft : e.ruleStatus = some .draft) :
      EntryFault v before e (.unacceptable .draftRuleVersion)
  /-- Its rule version came before. -/
  | repeated (seen : e.ruleVersionId ∈ before.map Entry.ruleVersionId) :
      EntryFault v before e (.conflict .duplicateRuleVersion)
  /-- It has no priority, and the version is sequential. -/
  | missing (sequential : v.mode = .sequential) (missing : e.priority = none) :
      EntryFault v before e (.unacceptable .priorityRequired)
  /-- Its priority came before, and the version is sequential. -/
  | taken {p : Int64} (sequential : v.mode = .sequential) (priority : e.priority = some p)
      (seen : p ∈ before.filterMap Entry.priority) :
      EntryFault v before e (.conflict .priorityTaken)

theorem draft_rule_iff :
    (!v.isDraft && e.ruleStatus == some .draft) = true ↔
      v.status ≠ .draft ∧ e.ruleStatus = some .draft := by
  simp [isDraft]

/-- The check of an entry, one test after another. -/
theorem checkEntry_eq (v : Version) (ruleVersions : List String) (priorities : List Int64)
    (e : Entry) :
    v.checkEntry ruleVersions priorities e =
      if e.archived = true then .error (.unacceptable .archivedRule)
      else if (!v.isDraft && e.ruleStatus == some .draft) = true then
        .error (.unacceptable .draftRuleVersion)
      else if ruleVersions.contains e.ruleVersionId = true then
        .error (.conflict .duplicateRuleVersion)
      else match v.mode, e.priority with
        | .parallel, _ => .ok priorities
        | .sequential, none => .error (.unacceptable .priorityRequired)
        | .sequential, some p =>
          if priorities.contains p = true then .error (.conflict .priorityTaken)
          else .ok (p :: priorities) := rfl

theorem checkEntry_eq_ok_iff :
    v.checkEntry ruleVersions priorities e = .ok ps ↔
      e.archived = false ∧ (v.status ≠ .draft → e.ruleStatus ≠ some .draft) ∧
        e.ruleVersionId ∉ ruleVersions ∧
        (v.mode = .parallel ∧ ps = priorities ∨
          ∃ p, v.mode = .sequential ∧ e.priority = some p ∧ p ∉ priorities ∧
            ps = p :: priorities) := by
  rw [checkEntry_eq]
  split
  · next harchived => simp [harchived]
  split
  · next hdraft =>
    obtain ⟨hfrozen, hrule⟩ := draft_rule_iff.mp hdraft
    simp [hfrozen, hrule]
  next hdraft =>
  have hreviewed : v.status ≠ .draft → e.ruleStatus ≠ some .draft :=
    fun hfrozen hrule => hdraft (draft_rule_iff.mpr ⟨hfrozen, hrule⟩)
  split
  · next hseen => simp [List.contains_iff_mem.mp hseen]
  next harchived hseen =>
  have hnew : e.ruleVersionId ∉ ruleVersions := fun h => hseen (List.contains_iff_mem.mpr h)
  simp only [Bool.not_eq_true] at harchived
  rw [and_iff_right hreviewed]
  simp only [harchived, hnew, true_and, not_false_eq_true]
  split
  · next hmode => simp [hmode, eq_comm]
  · next hmode hnone => simp [hmode, hnone]
  · next p hmode hsome =>
    by_cases hp : p ∈ priorities
    · simp [hmode, hsome, hp]
    · simp [hmode, hsome, hp, eq_comm]

/-- **An error of the check of an entry names a fault**, if nothing but what came before is
remembered. -/
theorem entryFault_of_checkEntry_eq_error
    (hruleVersions : ∀ r ∈ ruleVersions, r ∈ before.map Entry.ruleVersionId)
    (hpriorities : ∀ p ∈ priorities, p ∈ before.filterMap Entry.priority)
    (h : v.checkEntry ruleVersions priorities e = .error x) : v.EntryFault before e x := by
  rw [checkEntry_eq] at h
  split at h
  · next harchived =>
    obtain rfl := Except.error.inj h
    exact .archived harchived
  split at h
  · next hdraft =>
    obtain rfl := Except.error.inj h
    obtain ⟨hfrozen, hrule⟩ := draft_rule_iff.mp hdraft
    exact .draft hfrozen hrule
  split at h
  · next hseen =>
    obtain rfl := Except.error.inj h
    exact .repeated (hruleVersions _ (List.contains_iff_mem.mp hseen))
  split at h
  · cases h
  · next hmode hnone =>
    obtain rfl := Except.error.inj h
    exact .missing hmode hnone
  · next p hmode hsome =>
    split at h
    · next hseen =>
      obtain rfl := Except.error.inj h
      exact .taken hmode hsome (hpriorities p (List.contains_iff_mem.mp hseen))
    · cases h

/-! ### All entries -/

/-- **Only the mode and the status of a version matter** to the check of entries. -/
theorem checkEntries_congr {w : Version} (hmode : w.mode = v.mode) (hstatus : w.status = v.status)
    (ruleVersions : List String) (priorities : List Int64) (es : List Entry) :
    w.checkEntries ruleVersions priorities es = v.checkEntries ruleVersions priorities es := by
  induction es generalizing ruleVersions priorities with
  | nil => rfl
  | cons e es ih =>
    have hentry : w.checkEntry ruleVersions priorities e =
        v.checkEntry ruleVersions priorities e := by
      rw [checkEntry_eq, checkEntry_eq, isDraft, isDraft, hmode, hstatus]
    rw [checkEntries, checkEntries, hentry]
    simp only [ih]

theorem checkEntries_cons_eq_ok_iff :
    v.checkEntries ruleVersions priorities (e :: es) = .ok () ↔
      ∃ ps, v.checkEntry ruleVersions priorities e = .ok ps ∧
        v.checkEntries (e.ruleVersionId :: ruleVersions) ps es = .ok () := by
  rw [checkEntries]
  rcases v.checkEntry ruleVersions priorities e with y | ps
  · simp [bind, Except.bind]
  · simp [bind, Except.bind]

/-- **What the check accepts behind what it remembers**: the entries are all right one by one,
and together with what is remembered no rule version comes twice; nor does a priority, in a
sequential version. -/
theorem checkEntries_eq_ok_iff (hruleVersions : ruleVersions.Nodup)
    (hpriorities : priorities.Nodup) :
    v.checkEntries ruleVersions priorities es = .ok () ↔
      (∀ e ∈ es, e.archived = false) ∧
      (v.status ≠ .draft → ∀ e ∈ es, e.ruleStatus ≠ some .draft) ∧
      (es.map Entry.ruleVersionId ++ ruleVersions).Nodup ∧
      (v.mode = .sequential → (∀ e ∈ es, e.priority ≠ none) ∧
        (es.filterMap Entry.priority ++ priorities).Nodup) := by
  induction es generalizing ruleVersions priorities with
  | nil => simp [checkEntries, hruleVersions, hpriorities]
  | cons e es ih =>
    simp only [checkEntries_cons_eq_ok_iff, List.forall_mem_cons, List.map_cons, List.cons_append]
    -- What is remembered of this entry may as well stand in front of the entries to come.
    constructor
    · rintro ⟨ps, hentry, hes⟩
      obtain ⟨harchived, hreviewed, hnew, hpriority⟩ := checkEntry_eq_ok_iff.mp hentry
      have hnext := List.nodup_cons.mpr ⟨hnew, hruleVersions⟩
      rcases hpriority with ⟨hmode, rfl⟩ | ⟨p, hmode, hsome, hfree, rfl⟩
      · obtain ⟨harchiveds, hrevieweds, hnodup, -⟩ := (ih hnext hpriorities).mp hes
        refine ⟨⟨harchived, harchiveds⟩, fun hfrozen => ⟨hreviewed hfrozen, hrevieweds hfrozen⟩,
          List.nodup_middle.mp hnodup, fun hseq => ?_⟩
        rw [hmode] at hseq
        cases hseq
      · obtain ⟨harchiveds, hrevieweds, hnodup, hseq⟩ :=
          (ih hnext (List.nodup_cons.mpr ⟨hfree, hpriorities⟩)).mp hes
        refine ⟨⟨harchived, harchiveds⟩, fun hfrozen => ⟨hreviewed hfrozen, hrevieweds hfrozen⟩,
          List.nodup_middle.mp hnodup, fun _ => ⟨⟨by simp [hsome], (hseq hmode).1⟩, ?_⟩⟩
        rw [List.filterMap_cons_some hsome]
        exact List.nodup_middle.mp (hseq hmode).2
    · rintro ⟨⟨harchived, harchiveds⟩, hreviewed, hnodup, hseq⟩
      have hnew : e.ruleVersionId ∉ ruleVersions :=
        fun hmem => (List.nodup_cons.mp hnodup).1 (List.mem_append_right _ hmem)
      have hnext := List.nodup_cons.mpr ⟨hnew, hruleVersions⟩
      cases hmode : v.mode with
      | parallel =>
        refine ⟨priorities, checkEntry_eq_ok_iff.mpr
          ⟨harchived, fun hfrozen => (hreviewed hfrozen).1, hnew, Or.inl ⟨hmode, rfl⟩⟩, ?_⟩
        refine (ih hnext hpriorities).mpr ⟨harchiveds, fun hfrozen => (hreviewed hfrozen).2,
          List.nodup_middle.mpr hnodup, fun hseq' => ?_⟩
        rw [hmode] at hseq'
        cases hseq'
      | sequential =>
        obtain ⟨⟨hgiven, hgivens⟩, hnodup'⟩ := hseq hmode
        obtain ⟨p, hsome⟩ := Option.ne_none_iff_exists'.mp hgiven
        rw [List.filterMap_cons_some hsome] at hnodup'
        have hfree : p ∉ priorities :=
          fun hmem => (List.nodup_cons.mp hnodup').1 (List.mem_append_right _ hmem)
        refine ⟨p :: priorities, checkEntry_eq_ok_iff.mpr ⟨harchived,
          fun hfrozen => (hreviewed hfrozen).1, hnew, Or.inr ⟨p, hmode, hsome, hfree, rfl⟩⟩, ?_⟩
        exact (ih hnext (List.nodup_cons.mpr ⟨hfree, hpriorities⟩)).mpr
          ⟨harchiveds, fun hfrozen => (hreviewed hfrozen).2, List.nodup_middle.mpr hnodup,
            fun _ => ⟨hgivens, List.nodup_middle.mpr hnodup'⟩⟩

/-- **An error of the check of the entries names a fault** of one of them. -/
theorem exists_entryFault_of_checkEntries_eq_error
    (hruleVersions : ∀ r ∈ ruleVersions, r ∈ before.map Entry.ruleVersionId)
    (hpriorities : ∀ p ∈ priorities, p ∈ before.filterMap Entry.priority)
    (h : v.checkEntries ruleVersions priorities es = .error x) :
    ∃ mid e after, es = mid ++ e :: after ∧ v.EntryFault (before ++ mid) e x := by
  induction es generalizing before ruleVersions priorities with
  | nil => cases h
  | cons e es ih =>
    rw [checkEntries] at h
    rcases hentry : v.checkEntry ruleVersions priorities e with y | ps
    · rw [hentry] at h
      obtain rfl := Except.error.inj h
      refine ⟨[], e, es, rfl, ?_⟩
      rw [List.append_nil]
      exact entryFault_of_checkEntry_eq_error hruleVersions hpriorities hentry
    · rw [hentry] at h
      obtain ⟨-, -, -, hpriority⟩ := checkEntry_eq_ok_iff.mp hentry
      have hseen : ∀ r ∈ e.ruleVersionId :: ruleVersions,
          r ∈ (before ++ [e]).map Entry.ruleVersionId := by
        intro r hr
        rw [List.map_append, List.mem_append]
        rcases List.mem_cons.mp hr with rfl | hr
        · exact Or.inr List.mem_cons_self
        · exact Or.inl (hruleVersions r hr)
      have hgiven : ∀ p ∈ ps, p ∈ (before ++ [e]).filterMap Entry.priority := by
        intro p hp
        rw [List.filterMap_append, List.mem_append]
        rcases hpriority with ⟨-, rfl⟩ | ⟨q, -, hsome, -, rfl⟩
        · exact Or.inl (hpriorities p hp)
        · rcases List.mem_cons.mp hp with rfl | hp
          · exact Or.inr (by simp [hsome])
          · exact Or.inl (hpriorities p hp)
      obtain ⟨mid, d, after, rfl, hfault⟩ := ih hseen hgiven h
      exact ⟨e :: mid, d, after, rfl, by simpa using hfault⟩

/-! ### Versions -/

/-- **What the check of a version accepts.** -/
structure Valid (v : Version) : Prop where
  /-- A parallel version has a precedence. -/
  precedence : v.mode = .parallel → hasPrecedence v.precedence = true
  /-- No rule is archived. -/
  unarchived : ∀ e ∈ v.entries, e.archived = false
  /-- Only a draft holds drafts of rule versions. -/
  reviewed : v.status ≠ .draft → ∀ e ∈ v.entries, e.ruleStatus ≠ some .draft
  /-- No rule version comes twice. -/
  ruleVersions : (v.entries.map Entry.ruleVersionId).Nodup
  /-- All entries of a sequential version have priorities. -/
  prioritised : v.mode = .sequential → ∀ e ∈ v.entries, e.priority ≠ none
  /-- No priority comes twice in a sequential version. -/
  priorities : v.mode = .sequential → (v.entries.filterMap Entry.priority).Nodup

/-- **What can be wrong with a version**, and the error that says so. -/
inductive Fault (v : Version) : RuleError → Prop where
  /-- It is parallel and has no precedence. -/
  | precedence (parallel : v.mode = .parallel) (missing : hasPrecedence v.precedence = false) :
      Fault v (.unacceptable .precedenceRequired)
  /-- An entry is wrong behind those before it. -/
  | entry {before after : List Entry} {e : Entry} {x : RuleError}
      (place : v.entries = before ++ e :: after) (fault : v.EntryFault before e x) : Fault v x

/-- The settings are checked first, and then the entries. -/
theorem check_eq_ok_iff_checkEntries :
    v.check = .ok () ↔
      requirePrecedence v.mode v.precedence = .ok () ∧ v.checkEntries [] [] v.entries = .ok () := by
  unfold check
  rcases requirePrecedence v.mode v.precedence with y | u
  · simp [bind, Except.bind]
  · simp [bind, Except.bind]

theorem check_eq_ok_iff : v.check = .ok () ↔ v.Valid := by
  rw [check_eq_ok_iff_checkEntries, requirePrecedence_eq_ok_iff,
    checkEntries_eq_ok_iff List.nodup_nil List.nodup_nil, List.append_nil, List.append_nil]
  constructor
  · rintro ⟨hfits, harchived, hreviewed, hnodup, hseq⟩
    exact ⟨hfits, harchived, hreviewed, hnodup, fun h => (hseq h).1, fun h => (hseq h).2⟩
  · rintro ⟨hfits, harchived, hreviewed, hnodup, hgiven, hdistinct⟩
    exact ⟨hfits, harchived, hreviewed, hnodup, fun h => ⟨hgiven h, hdistinct h⟩⟩

/-- **An error of the check names a fault.** -/
theorem fault_of_check_eq_error (h : v.check = .error x) : v.Fault x := by
  unfold check at h
  rcases hfits : requirePrecedence v.mode v.precedence with y | u
  · rw [hfits] at h
    obtain rfl := Except.error.inj h
    unfold requirePrecedence at hfits
    split at hfits
    · next hmissing =>
      obtain rfl := Except.error.inj hfits
      exact .precedence hmissing.1 (by simpa using hmissing.2)
    · cases hfits
  · rw [hfits] at h
    have hnone : ∀ p ∈ ([] : List Int64), p ∈ ([] : List Entry).filterMap Entry.priority :=
      fun p hp => absurd hp List.not_mem_nil
    obtain ⟨before, e, after, hplace, hfault⟩ := exists_entryFault_of_checkEntries_eq_error
      (fun r hr => absurd hr List.not_mem_nil) hnone h
    exact .entry hplace hfault

/-- **What is left to report** of a version that has a precedence where one is needed, no archived
rule and no rule version twice: a priority that is missing or that comes twice, or a draft of a
rule version in a version that is no draft. -/
theorem Fault.cases_of_nodup (h : v.Fault x)
    (hfits : v.mode = .parallel → hasPrecedence v.precedence = true)
    (hunarchived : ∀ e ∈ v.entries, e.archived = false)
    (hruleVersions : (v.entries.map Entry.ruleVersionId).Nodup) :
    (x = .unacceptable .priorityRequired ∧ v.mode = .sequential ∧
      ∃ e ∈ v.entries, e.priority = none) ∨
    (x = .conflict .priorityTaken ∧ v.mode = .sequential ∧
      ¬(v.entries.filterMap Entry.priority).Nodup) ∨
    (x = .unacceptable .draftRuleVersion ∧ v.status ≠ .draft ∧
      ∃ e ∈ v.entries, e.ruleStatus = some .draft) := by
  cases h with
  | precedence hparallel hmissing =>
    rw [hfits hparallel] at hmissing
    cases hmissing
  | @entry before after e x hplace hfault =>
    have he : e ∈ v.entries := by
      rw [hplace]
      exact List.mem_append_right _ List.mem_cons_self
    cases hfault with
    | archived harchived =>
      rw [hunarchived e he] at harchived
      cases harchived
    | draft hfrozen hdraft => exact Or.inr (Or.inr ⟨rfl, hfrozen, e, he, hdraft⟩)
    | repeated hseen =>
      rw [hplace, List.map_append, List.map_cons, List.nodup_middle] at hruleVersions
      exact absurd (List.mem_append_left _ hseen) (List.nodup_cons.mp hruleVersions).1
    | missing hsequential hmissing => exact Or.inl ⟨rfl, hsequential, e, he, hmissing⟩
    | @taken p hsequential hpriority hseen =>
      refine Or.inr (Or.inl ⟨rfl, hsequential, fun hnodup => ?_⟩)
      rw [hplace, List.filterMap_append, List.filterMap_cons_some hpriority, List.nodup_middle]
        at hnodup
      exact (List.nodup_cons.mp hnodup).1 (List.mem_append_left _ hseen)

end Version

/-! ### Rulesets -/

namespace Ruleset

variable {s : Ruleset} {x : RuleError}

/-- **What can be wrong with a ruleset**, and the error that says so. -/
inductive Fault (s : Ruleset) : RuleError → Prop where
  /-- A version belongs to another ruleset. -/
  | foreign {v : Version} (mem : v ∈ s.versions) (foreign : v.rulesetId ≠ s.id) :
      Fault s (.unacceptable .foreignVersion)
  /-- A version is wrong by itself. -/
  | version {v : Version} {x : RuleError} (mem : v ∈ s.versions) (fault : v.Fault x) : Fault s x
  /-- More than one version is active. -/
  | severalActive (several : 1 < s.activeCount) : Fault s (.conflict .severalActive)

theorem checkVersions_cons (id : String) (v : Version) (vs : List Version) :
    checkVersions id (v :: vs) =
      if v.rulesetId != id then .error (.unacceptable .foreignVersion)
      else v.check >>= fun _ => checkVersions id vs := rfl

theorem checkVersions_eq_ok_iff {id : String} {vs : List Version} :
    checkVersions id vs = .ok () ↔ ∀ v ∈ vs, v.rulesetId = id ∧ v.Valid := by
  induction vs with
  | nil => simp [checkVersions]
  | cons v vs ih =>
    rw [checkVersions_cons, List.forall_mem_cons, ← ih, ← Version.check_eq_ok_iff]
    split
    · next hforeign =>
      have hne : v.rulesetId ≠ id := by simpa using hforeign
      simp [hne]
    · next hown =>
      have heq : v.rulesetId = id := by simpa using hown
      rcases v.check with y | u
      · simp [bind, Except.bind]
      · simp [bind, Except.bind, heq]

theorem fault_of_checkVersions_eq_error {vs : List Version}
    (h : checkVersions s.id vs = .error x) (hmem : ∀ v ∈ vs, v ∈ s.versions) : s.Fault x := by
  induction vs with
  | nil => cases h
  | cons v vs ih =>
    have hv : v ∈ s.versions := hmem v List.mem_cons_self
    rw [checkVersions_cons] at h
    split at h
    · next hforeign =>
      obtain rfl := Except.error.inj h
      exact .foreign hv (by simpa using hforeign)
    · rcases hcheck : v.check with y | u
      · rw [hcheck] at h
        obtain rfl := Except.error.inj h
        exact .version hv (Version.fault_of_check_eq_error hcheck)
      · rw [hcheck] at h
        exact ih h fun w hw => hmem w (List.mem_cons_of_mem _ hw)

/-- **What the check of a ruleset accepts**: versions of the ruleset that are accepted by
themselves, at most one of them active. -/
theorem check_eq_ok_iff :
    s.check = .ok () ↔ (∀ v ∈ s.versions, v.rulesetId = s.id ∧ v.Valid) ∧ s.activeCount ≤ 1 := by
  rw [← checkVersions_eq_ok_iff, ← Nat.not_lt]
  unfold check
  rcases checkVersions s.id s.versions with y | u
  · simp [bind, Except.bind]
  · by_cases hseveral : 1 < s.activeCount
    · simp [bind, Except.bind, hseveral, throw, throwThe, MonadExceptOf.throw]
    · simp [bind, Except.bind, pure, Except.pure, hseveral]

/-- **An error of the check names a fault.** -/
theorem fault_of_check_eq_error (h : s.check = .error x) : s.Fault x := by
  unfold check at h
  rcases hversions : checkVersions s.id s.versions with y | u
  · rw [hversions] at h
    obtain rfl := Except.error.inj h
    exact fault_of_checkVersions_eq_error hversions fun v hv => hv
  · rw [hversions] at h
    by_cases hseveral : 1 < s.activeCount
    · simp only [bind, Except.bind, hseveral, if_true, throw, throwThe, MonadExceptOf.throw,
        Except.error.injEq] at h
      obtain rfl := h
      exact .severalActive hseveral
    · simp [bind, Except.bind, pure, Except.pure, hseveral] at h

end Ruleset

end Rulebook
