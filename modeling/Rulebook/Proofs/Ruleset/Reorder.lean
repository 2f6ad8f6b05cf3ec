import Rulebook.Proofs.Ruleset.Candidate

/-!
# What a change of an entry does to the check

A change of an entry looks its entry up by the id, and takes the first one that it finds. When it
looks for a clash of priorities it spares the entry by the id as well, and so spares all entries
with that id. The two are the same thing only while ids are apart, which the edits see to and the
check does not ask for. In a version that was loaded the first entry with an id may therefore get
the priority of a **namesake**, another entry with its id, and of no other entry.

Together with the switches of the mode this is all that can go wrong. Along any list of edits the
check accepts the version all the time exactly if every edit that succeeds finds what it has to.

* `Rulebook.Version.namesakes` – the entries with an id behind the first one;
* `Rulebook.Version.Valid.patched_iff` – when a change keeps a version that the check accepts;
* `Rulebook.VersionEdit.Fits`, `Rulebook.Version.EditsFit` – what an edit has to find, and a list of
  edits;
* `Rulebook.Version.check_patchEntry` – what the check says after a change of an entry, and along a
  list of edits.
-/

namespace Rulebook

namespace Version

variable {v v' : Version} {id : String} {enabled : Option Bool} {priority : Option Int64}
  {pre post : List Entry} {d e : Entry}

/-! ### Entries with the same id -/

/-- **The entries with an id** behind the first one. -/
def namesakes (v : Version) (id : String) : List Entry :=
  (v.entries.filter fun e => e.id == id).tail

/-- The namesakes all stand behind the entry that is found. -/
theorem namesakes_eq (hat : FirstAt (fun d : Entry => d.id == id) v.entries pre e post) :
    v.namesakes id = post.filter fun d => d.id == id := by
  have hpre : pre.filter (fun d => d.id == id) = [] :=
    List.filter_eq_nil_iff.mpr fun d hd => by simp [hat.before d hd]
  rw [namesakes, hat.eq, List.filter_append, hpre, List.nil_append,
    List.filter_cons_of_pos (p := fun d : Entry => d.id == id) hat.picked, List.tail_cons]

theorem namesakes_eq_nil (hids : (v.entries.map Entry.id).Nodup) (id : String) :
    v.namesakes id = [] := by
  rcases exists_firstAt (fun d : Entry => d.id == id) v.entries with
    ⟨pre, e, post, hat⟩ | hnone
  · have hid : e.id = id := by simpa using hat.picked
    rw [namesakes_eq hat, List.filter_eq_nil_iff]
    intro d hd heq
    have hsame : d.id = id := by simpa using heq
    exact key_ne_of_nodup hids hat.eq d (List.mem_append_right _ hd) (hsame.trans hid.symm)
  · have hfilter : v.entries.filter (fun d => d.id == id) = [] :=
      List.filter_eq_nil_iff.mpr fun d hd => by simp [hnone d hd]
    rw [namesakes, hfilter, List.tail_nil]

/-- **A priority that is free but for an id** can be that of a namesake only, the entry that is
found apart. -/
theorem mem_priorities_iff (hat : FirstAt (fun d : Entry => d.id == id) v.entries pre e post)
    {p : Int64} (hfree : v.priorityFree p (some id) = true) :
    p ∈ (pre ++ post).filterMap Entry.priority ↔ ∃ d ∈ v.namesakes id, d.priority = some p := by
  rw [namesakes_eq hat, List.mem_filterMap]
  constructor
  · rintro ⟨d, hd, hpriority⟩
    have hid : d.id = id :=
      Option.some.inj (priorityFree_iff.mp hfree d (hat.sublist.subset hd) hpriority)
    rcases List.mem_append.mp hd with hbefore | hbehind
    · have hother := hat.before d hbefore
      simp [hid] at hother
    · exact ⟨d, List.mem_filter.mpr ⟨hbehind, by simp [hid]⟩, hpriority⟩
  · rintro ⟨d, hd, hpriority⟩
    exact ⟨d, List.mem_append_right _ (List.mem_filter.mp hd).1, hpriority⟩

/-! ### One change -/

/-- What holds of all items holds of them with another one in the place of one. -/
theorem forall_mem_replace {P : Entry → Prop} (h : ∀ y ∈ pre ++ d :: post, P y)
    (he : P d → P e) : ∀ y ∈ pre ++ e :: post, P y := by
  rw [List.forall_mem_append, List.forall_mem_cons] at h ⊢
  exact ⟨h.1, he h.2.1, h.2.2⟩

/-- **With another entry in the place of one**, for the same rule version, the check has nothing but
the priorities left to look at. -/
theorem Valid.replace_iff (h : v.Valid) (hentries : v.entries = pre ++ d :: post)
    (harchived : e.archived = d.archived) (hstatus : e.ruleStatus = d.ruleStatus)
    (hruleVersion : e.ruleVersionId = d.ruleVersionId) :
    ({ v with entries := pre ++ e :: post } : Version).Valid ↔
      (v.mode = .sequential →
        e.priority ≠ none ∧ ((pre ++ e :: post).filterMap Entry.priority).Nodup) := by
  constructor
  · intro hvalid hmode
    have hgiven := hvalid.prioritised hmode
    exact ⟨hgiven e (List.mem_append_right _ List.mem_cons_self), hvalid.priorities hmode⟩
  · intro hpriorities
    obtain ⟨hfits, hunarchived, hreviewed, hruleVersions, hgiven, -⟩ := h
    rw [hentries] at hunarchived hreviewed hruleVersions hgiven
    refine ⟨hfits, forall_mem_replace hunarchived fun hd => harchived.trans hd,
      fun hfrozen => forall_mem_replace (hreviewed hfrozen) fun hd => hstatus ▸ hd, ?_,
      fun hmode => forall_mem_replace (hgiven hmode) fun _ => (hpriorities hmode).1,
      fun hmode => (hpriorities hmode).2⟩
    simpa [hruleVersion] using hruleVersions

/-- **When a change of an entry keeps a version that the check accepts**: if it gives no priority,
or one that no namesake has. -/
theorem Valid.patched_iff (h : v.Valid)
    (hat : FirstAt (fun d : Entry => d.id == id) v.entries pre e post)
    (hfree : ∀ p, priority = some p → v.mode = .sequential ∧ v.priorityFree p (some id) = true) :
    ({ v with entries := pre ++ e.patched enabled priority :: post } : Version).Valid ↔
      ∀ p ∈ priority, ∀ d ∈ v.namesakes id, d.priority ≠ some p := by
  refine (h.replace_iff (e := e.patched enabled priority) hat.eq rfl rfl rfl).trans ?_
  cases priority with
  | none =>
    -- The priorities are those that there were before.
    refine iff_of_true (fun hmode => ⟨h.prioritised hmode e hat.mem, ?_⟩) nofun
    have hpriorities := h.priorities hmode
    rw [hat.eq] at hpriorities
    simpa [Entry.patched, List.filterMap_cons] using hpriorities
  | some p =>
    obtain ⟨hmode, hfree⟩ := hfree p rfl
    have hsome : (e.patched enabled (some p)).priority = some p := rfl
    have hothers : ((pre ++ post).filterMap Entry.priority).Nodup :=
      (h.priorities hmode).sublist (hat.sublist.filterMap _)
    have hnodup : ((pre ++ e.patched enabled (some p) :: post).filterMap Entry.priority).Nodup ↔
        ¬∃ d ∈ v.namesakes id, d.priority = some p := by
      rw [← mem_priorities_iff hat hfree, List.filterMap_append, List.filterMap_cons_some hsome,
        List.nodup_middle, ← List.filterMap_append, List.nodup_cons]
      exact and_iff_left hothers
    rw [hnodup, hsome]
    simp [hmode]

/-- **What the check reports after a change** that it does not accept: a priority that comes
twice. -/
theorem check_patched_eq_error (h : v.Valid)
    (hat : FirstAt (fun d : Entry => d.id == id) v.entries pre e post) {x : RuleError}
    (hcheck : ({ v with entries := pre ++ e.patched enabled priority :: post } : Version).check =
      .error x) : x = .conflict .priorityTaken := by
  obtain ⟨hfits, hunarchived, hreviewed, hruleVersions, hgiven, -⟩ := h
  rw [hat.eq] at hunarchived hreviewed hruleVersions hgiven
  have hapart : ((pre ++ e.patched enabled priority :: post).map Entry.ruleVersionId).Nodup := by
    simpa [Entry.patched] using hruleVersions
  have hkept : ∀ y ∈ pre ++ e.patched enabled priority :: post, y.archived = false :=
    forall_mem_replace hunarchived fun he => he
  rcases (fault_of_check_eq_error hcheck).cases_of_nodup hfits hkept hapart with
    ⟨-, hmode, d, hd, hmissing⟩ | ⟨rfl, -, -⟩ | ⟨-, hfrozen, d, hd, hdraft⟩
  · refine absurd hmissing (forall_mem_replace (hgiven hmode) (fun he => ?_) d hd)
    cases priority with
    | none => exact he
    | some p => exact Option.some_ne_none p
  · rfl
  · have hdrafts : ∀ y ∈ pre ++ e.patched enabled priority :: post,
        y.ruleStatus ≠ some .draft := forall_mem_replace (hreviewed hfrozen) fun he => he
    exact absurd hdraft (hdrafts d hd)

end Version

/-! ### Lists of edits -/

/-- **What an edit has to find** for the check to go on accepting the version: a change of an entry,
no namesake with the priority that it gives; a switch to sequential, entries that can be run one
after another. -/
def VersionEdit.Fits (v : Version) : VersionEdit → Prop
  | .patchEntry id _ priority => ∀ p ∈ priority, ∀ d ∈ v.namesakes id, d.priority ≠ some p
  | e => v.mode = .parallel → (e.perform.run v).2.mode = .sequential → v.Prioritised

instance (v : Version) : (e : VersionEdit) → Decidable (e.Fits v)
  | .patchEntry _ _ priority => priority.decidableForallMem
  | .updateSettings _ _ => inferInstanceAs (Decidable (_ → _))
  | .addEntry _ _ _ => inferInstanceAs (Decidable (_ → _))
  | .deleteEntry _ => inferInstanceAs (Decidable (_ → _))

namespace Version

variable {v v' : Version} {e : VersionEdit} {answer : Option Entry}

/-- **When an edit that succeeds keeps a version that the check accepts**, whatever edit it is. -/
theorem valid_iff_fits (hv : v.Valid) (hrun : e.perform.run v = (.ok answer, v')) :
    v'.Valid ↔ e.Fits v := by
  have hedited := VersionEdit.run_perform_eq_ok_iff.mp hrun
  have hresult : (e.perform.run v).2 = v' := by rw [hrun]
  cases hedited with
  | patched hdraft hfree hat => exact hv.patched_iff hat hfree
  | settings hdraft hfits =>
    exact hresult ▸ (Edited.settings hdraft hfits).valid_iff hv rfl
  | added hdraft hfits hkept hfresh hgiven =>
    exact hresult ▸ (Edited.added hdraft hfits hkept hfresh hgiven).valid_iff hv rfl
  | deleted hdraft hat => exact hresult ▸ (Edited.deleted hdraft hat).valid_iff hv rfl

/-- **Every edit of a list that succeeds** finds what it has to. -/
def EditsFit : Version → List VersionEdit → Prop
  | _, [] => True
  | v, e :: es =>
    ((e.perform.run v).1.isOk = true → e.Fits v) ∧ EditsFit (e.perform.run v).2 es

instance decidableEditsFit :
    (v : Version) → (es : List VersionEdit) → Decidable (v.EditsFit es)
  | _, [] => .isTrue trivial
  | v, e :: es =>
    have := decidableEditsFit (e.perform.run v).2 es
    inferInstanceAs (Decidable (_ ∧ _))

/-- The same of one edit that may fail, and then changes nothing. -/
theorem valid_run_perform_iff_fits (hv : v.Valid) :
    (e.perform.run v).2.Valid ↔ ((e.perform.run v).1.isOk = true → e.Fits v) := by
  rcases hrun : e.perform.run v with ⟨x | answer, v'⟩
  · obtain rfl := VersionEdit.atomic_perform e v x v' hrun
    exact iff_of_true hv fun hok => absurd hok Bool.false_ne_true
  · rw [valid_iff_fits hv hrun]
    exact ⟨fun hfits _ => hfits, fun hfits => hfits rfl⟩

/-- **The check accepts the version all along a list of edits** exactly if every one that succeeds
fits. -/
theorem valid_after_take_iff_editsFit (hv : v.Valid) {es : List VersionEdit} :
    (∀ n, (v.after (es.take n)).Valid) ↔ v.EditsFit es := by
  induction es generalizing v with
  | nil =>
    refine iff_of_true (fun n => ?_) trivial
    rw [List.take_nil]
    exact hv
  | cons e es ih =>
    have hstep := valid_run_perform_iff_fits (e := e) hv
    constructor
    · intro hall
      have hnext : (e.perform.run v).2.Valid := hall 1
      exact ⟨hstep.mp hnext, (ih hnext).mp fun n => hall (n + 1)⟩
    · rintro ⟨hfits, hrest⟩ n
      cases n with
      | zero => exact hv
      | succ n => exact (ih (hstep.mpr hfits)).mpr hrest n

/-- **What the check says after a change of an entry**, if it accepted the version before: it
accepts the version exactly if the change gives no priority that a namesake of the entry has, which
is to say always if ids are apart; otherwise it reports a priority that comes twice. And along a
list of edits of any kind it accepts the version all the time exactly if every one that succeeds
fits. -/
theorem check_patchEntry (h : v.check = .ok ()) :
    (∀ id enabled priority entry v', (patchEntry id enabled priority).run v = (.ok entry, v') →
      (v'.check = .ok () ↔ ∀ p ∈ priority, ∀ d ∈ v.namesakes id, d.priority ≠ some p) ∧
      ((v.entries.map Entry.id).Nodup → v'.check = .ok ()) ∧
      ∀ x, v'.check = .error x → x = .conflict .priorityTaken) ∧
    ∀ es : List VersionEdit, (∀ n, (v.after (es.take n)).check = .ok ()) ↔ v.EditsFit es := by
  have hv := check_eq_ok_iff.mp h
  refine ⟨fun id enabled priority entry v' hrun => ?_, fun es => ?_⟩
  · obtain ⟨-, hfree, pre, e, post, hat, -, rfl⟩ := run_patchEntry_eq_ok_iff.mp hrun
    have hiff := @Valid.patched_iff v id enabled priority pre post e hv hat hfree
    rw [check_eq_ok_iff]
    refine ⟨hiff, fun hids => hiff.mpr fun p _ d hd => ?_, fun x => check_patched_eq_error hv hat⟩
    rw [namesakes_eq_nil hids id] at hd
    cases hd
  · rw [← valid_after_take_iff_editsFit hv]
    exact forall_congr' fun n => check_eq_ok_iff

/-- The first entry with the id goes behind the other one, is turned off and comes back. -/
def reorders : List VersionEdit :=
  [.patchEntry "limit" none (some 3), .patchEntry "limit" (some false) none,
   .patchEntry "limit" (some true) (some 1)]

theorem check_after_reorders :
    sameEntryIds.check = .ok () ∧
      (∃ entry v', (patchEntry "limit" none (some 3)).run sameEntryIds = (.ok entry, v') ∧
        v'.check = .ok ()) ∧
      ∀ n, (sameEntryIds.after (reorders.take n)).check = .ok () := by
  obtain ⟨hone, hall⟩ := check_patchEntry (v := sameEntryIds) rfl
  have hnamesakes : ∀ d ∈ sameEntryIds.namesakes "limit", d.priority ≠ some 3 := by decide
  refine ⟨rfl, ⟨_, _, rfl, ?_⟩, (hall reorders).mpr (by decide)⟩
  refine (hone "limit" none (some 3) _ _ rfl).1.mpr fun p hp => ?_
  obtain rfl := Option.some.inj hp
  exact hnamesakes

/-- **An entry gets the priority of its namesake**: the change succeeds, and the check then rejects
what it accepted before. -/
theorem priorityTaken_after_reorder :
    sameEntryIds.check = .ok () ∧
      ∃ entry v', (patchEntry "limit" none (some 2)).run sameEntryIds = (.ok entry, v') ∧
        v'.check = .error (.conflict .priorityTaken) :=
  ⟨rfl, _, _, rfl, rfl⟩

end Version

end Rulebook
