import Rulebook.Proofs.Ruleset.Candidate
import Rulebook.Proofs.Ruleset.Entries
import Rulebook.Proofs.Ruleset.Independence

/-!
# Entries that are taken back

An entry that was added can be deleted again, and nothing of it is left. A deletion takes the first
entry with an id, and it is the right one because entries are named after their versions and rule
versions: no other entry of the ruleset has the name, and none gets it while the entry is there.

Other edits may come in between. An edit that succeeds with the entry there succeeds without it, and
answers the same: the entry can only stand in the way of others. So the version without the entry
goes through the same edits, and when the entry is deleted in the end, what is left is what these
edits would have left without it.

* `Rulebook.Version.without` – a version without the entries that have an id;
* `Rulebook.VersionEdit.Spares` – the edits that leave an entry alone;
* `Rulebook.Version.Edited.without` – such an edit does the same to the version without the entry;
* `Rulebook.Ruleset.Reachable.delete_after_add` – **what is added can be taken back**.
-/

namespace Rulebook

/-! ### Versions without an entry -/

namespace Version

variable {v v' : Version} {d : VersionEdit} {answer : Option Entry} {e : Entry} {id : String}

/-- **A version without the entries that have an id.** -/
def without (v : Version) (id : String) : Version :=
  { v with entries := v.entries.filter fun e => e.id != id }

theorem without_with_entries {es rest : List Entry} (h : es.filter (fun e => e.id != id) = rest) :
    ({ v with entries := es } : Version).without id = { v.without id with entries := rest } := by
  rw [← h]
  rfl

theorem mem_entries_without : e ∈ (v.without id).entries ↔ e ∈ v.entries ∧ e.id ≠ id := by
  simp [without]

/-- A version with one more entry at the end is the version again without it. -/
theorem without_withEntry (h : ∀ d ∈ v.entries, d.id ≠ e.id) :
    (v.withEntry e).without e.id = v := by
  have hentries : (v.entries ++ [e]).filter (fun d => d.id != e.id) = v.entries := by
    rw [List.filter_append, List.filter_eq_self.mpr fun d hd => by simpa using h d hd]
    simp
  rw [withEntry, without_with_entries hentries]
  rfl

/-- **A deletion takes the entry** that it is to take, if no other entry has the id, and leaves the
version without it. -/
theorem exists_deleted (hids : (v.entries.map Entry.id).Nodup) (he : e ∈ v.entries)
    (hdraft : v.status = .draft) :
    ∃ pre post, v.entries = pre ++ e :: post ∧
      v.without e.id = { v with entries := pre ++ post } ∧
      v.Edited (.deleteEntry e.id) (some e) (v.without e.id) := by
  obtain ⟨pre, post, hat, hothers⟩ := exists_firstAt_of_nodup hids he
  have hwithout : v.without e.id = { v with entries := pre ++ post } := by
    have hfilter : (pre ++ e :: post).filter (fun d => d.id != e.id) = pre ++ post := by
      rw [List.filter_append, List.filter_cons_of_neg (by simp), ← List.filter_append]
      exact List.filter_eq_self.mpr fun d hd => by simpa using hothers d hd
    rw [without, hat.eq, hfilter]
  refine ⟨pre, post, hat.eq, hwithout, ?_⟩
  rw [hwithout]
  exact .deleted hdraft hat

/-! ### Edits that leave an entry alone -/

/-- With fewer entries a priority is free that was free before. -/
theorem priorityFree_without {p : Int64} {except : Option String}
    (h : v.priorityFree p except = true) : (v.without id).priorityFree p except = true :=
  priorityFree_iff.mpr fun e he => priorityFree_iff.mp h e (mem_entries_without.mp he).1

theorem newPriority_without {given priority : Option Int64}
    (h : v.newPriority given = .ok priority) : (v.without id).newPriority given = .ok priority := by
  rw [newPriority_eq_ok_iff] at h ⊢
  refine h.imp_right ?_
  rintro ⟨p, hmode, hgiven, hpriority, hfree⟩
  exact ⟨p, hmode, hgiven, hpriority, fun e he => hfree e (mem_entries_without.mp he).1⟩

end Version

/-- **Whether an edit leaves the entry with an id alone**: it neither changes it nor removes it. -/
def VersionEdit.Spares (id : String) : VersionEdit → Prop
  | .updateSettings _ _ | .addEntry _ _ _ => True
  | .patchEntry other _ _ | .deleteEntry other => other ≠ id

instance (id : String) : (d : VersionEdit) → Decidable (d.Spares id)
  | .updateSettings _ _ | .addEntry _ _ _ => .isTrue trivial
  | .patchEntry other _ _ | .deleteEntry other => inferInstanceAs (Decidable (other ≠ id))

namespace Version

variable {v v' : Version} {d : VersionEdit} {answer : Option Entry} {e : Entry} {id : String}

/-- **An edit that leaves an entry alone** does to the version without the entry what it does to the
version, and answers the same. The entry is still there. -/
theorem Edited.without (h : v.Edited d answer v') (hkept : v.Kept) (he : e ∈ v.entries)
    (hspares : d.Spares e.id) :
    (v.without e.id).Edited d answer (v'.without e.id) ∧ e ∈ v'.entries := by
  cases h with
  | settings hdraft hfits => exact ⟨.settings hdraft hfits, he⟩
  | @added r enabled given priority hdraft hfits harchived hfresh hgiven =>
    -- A new entry with the id of the old one would be for the same rule version.
    have hne : entryIdOf v.id r.id ≠ e.id := by
      rw [hkept.ids e he]
      exact fun hid => hfresh e he (entryIdOf_inj.mp hid).symm
    have hfilter : (v.entries ++ [v.entryFor r enabled priority]).filter (fun c => c.id != e.id) =
        (v.without e.id).entries ++ [v.entryFor r enabled priority] := by
      rw [List.filter_append, List.filter_cons_of_pos (by simpa [entryFor] using hne),
        List.filter_nil, Version.without]
    refine ⟨?_, List.mem_append_left _ he⟩
    rw [without_with_entries hfilter]
    exact .added hdraft hfits harchived (fun c hc => hfresh c (mem_entries_without.mp hc).1)
      (newPriority_without hgiven)
  | @patched id enabled priority pre post c hdraft hfree hat =>
    have hid : c.id = id := by simpa using hat.picked
    have hne : c.id ≠ e.id := hid ▸ hspares
    have hfilter : (pre ++ c.patched enabled priority :: post).filter (fun c => c.id != e.id) =
        pre.filter (fun c => c.id != e.id) ++
          c.patched enabled priority :: post.filter fun c => c.id != e.id := by
      rw [List.filter_append, List.filter_cons_of_pos]
      simpa [Entry.patched] using hne
    refine ⟨?_, ?_⟩
    · rw [without_with_entries hfilter]
      exact .patched hdraft (fun p hp => ⟨(hfree p hp).1, priorityFree_without (hfree p hp).2⟩)
        (hat.filter (by simpa using hne))
    · rw [hat.eq] at he
      simp only [List.mem_append, List.mem_cons] at he ⊢
      refine he.imp_right fun h => Or.inr (h.resolve_left fun heq => ?_)
      exact hne (congrArg Entry.id heq.symm)
  | @deleted id pre post c hdraft hat =>
    have hid : c.id = id := by simpa using hat.picked
    have hne : c.id ≠ e.id := hid ▸ hspares
    refine ⟨?_, ?_⟩
    · rw [without_with_entries (List.filter_append pre post)]
      exact .deleted hdraft (hat.filter (by simpa using hne))
    · rw [hat.eq] at he
      simp only [List.mem_append, List.mem_cons] at he ⊢
      exact he.imp_right fun h => h.resolve_left fun heq => hne (congrArg Entry.id heq.symm)

/-- **A version from which an entry can be taken back**: a draft that has it, and that the
operations have kept in order. -/
structure Withdrawable (v : Version) (e : Entry) : Prop where
  /-- It is a draft. -/
  draft : v.status = .draft
  /-- The operations have kept it in order. -/
  kept : v.Kept
  /-- The entry is there. -/
  mem : e ∈ v.entries

theorem Edited.withdrawable (h : v.Edited d answer v') (hv : v.Withdrawable e)
    (hspares : d.Spares e.id) : v'.Withdrawable e :=
  ⟨h.status_eq.trans hv.draft, h.kept hv.kept, (h.without hv.kept hv.mem hspares).2⟩

end Version

/-! ### Rulesets -/

namespace Ruleset

variable {s : Ruleset} {v w : Version} {front back : List Version} {d : VersionEdit} {e : Entry}
  {id : String}

/-- **An edit of a version**, read off the place of the version. -/
theorem run_perform_edit_of_firstAt
    (hat : FirstAt (fun u : Version => u.id == id) s.versions front w back) (d : VersionEdit) :
    (Operation.edit id d).perform.run s =
      ((d.perform.run w).1.map Answer.ofEdit,
        { s with versions := front ++ (d.perform.run w).2 :: back }) := by
  rw [Operation.perform_edit, Edit.run_map, onVersion_eq_within, Edit.run_within_of_firstAt hat]
  rcases d.perform.run w with ⟨x | a, w'⟩ <;> rfl

/-- **Edits that leave an entry alone** leave a version with it from which it can still be taken
back; and those of them that succeed lead from the ruleset without the entry to the same ruleset
without the entry. -/
theorem exists_withdrawable_after
    (hat : FirstAt (fun u : Version => u.id == id) s.versions front w back)
    (hw : w.Withdrawable e) {es : List VersionEdit} (hes : ∀ d ∈ es, d.Spares e.id) :
    ∃ w', w'.id = id ∧ w'.Withdrawable e ∧
      s.after (es.map (.edit id)) = { s with versions := front ++ w' :: back } ∧
      ({ s with versions := front ++ w.without e.id :: back } : Ruleset).after
          (s.succeeding (es.map (.edit id))) =
        { s with versions := front ++ w'.without e.id :: back } := by
  -- The ruleset and the version go along with the edits; one that fails leaves both as they are.
  induction es generalizing s w with
  | nil =>
    refine ⟨w, by simpa using hat.picked, hw, ?_, rfl⟩
    rw [← hat.eq]
    rfl
  | cons d es ih =>
    obtain ⟨hd, hes⟩ := List.forall_mem_cons.mp hes
    rw [List.map_cons, after_cons, succeeding]
    rcases hrun : d.perform.run w with ⟨x | answer, w'⟩
    · have hfails : (Operation.edit id d).succeeds s = false := by
        rw [Operation.succeeds, run_perform_edit_of_firstAt hat, hrun]
        rfl
      rw [Operation.run_perform_of_not_succeeds hfails, hfails, if_neg Bool.false_ne_true]
      exact ih hat hw hes
    · have hedit := VersionEdit.run_perform_eq_ok_iff.mp hrun
      have hstep := Operation.run_perform_eq_ok_iff.mpr (.edited hat hedit)
      have hsucceeds : (Operation.edit id d).succeeds s = true := by
        rw [Operation.succeeds, hstep]
      have hid : w.id = id := by simpa using hat.picked
      have hat' : FirstAt (fun u : Version => u.id == id) (front ++ w' :: back) front w' back :=
        hat.replace (by simp [hedit.id_eq, hid])
      have hrest : FirstAt (fun u : Version => u.id == id) (front ++ w.without e.id :: back) front
          (w.without e.id) back := hat.replace (by simp [Version.without, hid])
      have hstep' : Performed { s with versions := front ++ w.without e.id :: back } (.edit id d)
          (.ofEdit answer) { s with versions := front ++ w'.without e.id :: back } :=
        .edited hrest (hedit.without hw.kept hw.mem hd).1
      rw [hstep, hsucceeds, if_pos rfl, after_cons, Operation.run_perform_eq_ok_iff.mpr hstep']
      exact ih hat' (hedit.withdrawable hw hd) hes

/-- **A deletion after edits that leave the entry alone** takes the entry and nothing else, and
leaves what the edits that succeed make of the ruleset without it. -/
theorem exists_deleted_after
    (hat : FirstAt (fun u : Version => u.id == id) s.versions front w back)
    (hw : w.Withdrawable e) {es : List VersionEdit} (hes : ∀ d ∈ es, d.Spares e.id) :
    ∃ w' pre post, s.after (es.map (.edit id)) = { s with versions := front ++ w' :: back } ∧
      w'.id = id ∧ w'.entries = pre ++ e :: post ∧
      (Operation.edit id (.deleteEntry e.id)).perform.run (s.after (es.map (.edit id))) =
        (.ok (.entry e),
          { s with versions := front ++ { w' with entries := pre ++ post } :: back }) ∧
      ({ s with versions := front ++ w.without e.id :: back } : Ruleset).after
          (s.succeeding (es.map (.edit id))) =
        { s with versions := front ++ { w' with entries := pre ++ post } :: back } := by
  obtain ⟨w', hid, hw', hafter, hrest⟩ := exists_withdrawable_after hat hw hes
  obtain ⟨pre, post, hentries, hwithout, hdelete⟩ :=
    Version.exists_deleted hw'.kept.nodup_ids hw'.mem hw'.draft
  have hat' : FirstAt (fun u : Version => u.id == id) (front ++ w' :: back) front w' back :=
    hat.replace (by simp [hid])
  rw [hwithout] at hrest hdelete
  refine ⟨w', pre, post, hafter, hid, hentries, ?_, hrest⟩
  rw [hafter]
  exact Operation.run_perform_eq_ok_iff.mpr (.edited hat' hdelete)

/-- **The id of a new entry is new**, in whatever version. -/
theorem Reachable.id_ne_entryFor (h : s.Reachable) (hv : v ∈ s.versions) {r : RuleVersion}
    (hfresh : ∀ e ∈ v.entries, e.ruleVersionId ≠ r.id) {enabled : Bool} {priority : Option Int64}
    (hw : w ∈ s.versions) (he : e ∈ w.entries) : e.id ≠ (v.entryFor r enabled priority).id := by
  intro hid
  have hname : Version.entryIdOf (Version.idOf s.id w.number) e.ruleVersionId =
      Version.entryIdOf (Version.idOf s.id v.number) r.id := by
    rw [← h.numbered.ids w hw, ← h.numbered.ids v hv, ← (h.kept w hw).ids e he, hid]
    rfl
  obtain ⟨hnumber, hruleVersion⟩ := Version.entryIdOf_idOf_inj.mp hname
  have hsame : w = v := by
    refine List.inj_on_of_nodup_map h.numbered.nodup_ids hw hv ?_
    rw [h.numbered.ids w hw, h.numbered.ids v hv, hnumber]
  exact hfresh e (hsame ▸ he) hruleVersion

/-- What an addition to a version of a reachable ruleset leaves: the entry comes to the version,
from which it can be taken back, and its id is new. -/
theorem Reachable.exists_added (h : s.Reachable) (hv : v ∈ s.versions) {r : RuleVersion}
    {enabled : Bool} {given : Option Int64} {s' : Ruleset}
    (hadd : (Operation.edit v.id (.addEntry r enabled given)).perform.run s =
      (.ok (.entry e), s')) :
    ∃ front back, FirstAt (fun u : Version => u.id == v.id) s.versions front v back ∧
      s' = { s with versions := front ++ v.withEntry e :: back } ∧
      (v.withEntry e).Withdrawable e ∧
      ∀ w ∈ s.versions, ∀ d ∈ w.entries, d.id ≠ e.id := by
  obtain ⟨front, back, hat, -⟩ := exists_firstAt_of_nodup h.numbered.nodup_ids hv
  rcases hrun : (VersionEdit.addEntry r enabled given).perform.run v with ⟨x | answer, v'⟩
  · rw [run_perform_edit_of_firstAt hat, hrun] at hadd
    cases (Prod.mk.inj hadd).1
  · have hedit := VersionEdit.run_perform_eq_ok_iff.mp hrun
    rw [Operation.run_perform_eq_ok_iff.mpr (.edited hat hedit)] at hadd
    obtain ⟨hanswer, rfl⟩ := Prod.mk.inj hadd
    have hkept : v'.Kept := hedit.kept (h.kept v hv)
    cases hedit with
    | @added _ _ _ priority hdraft _ _ hfresh _ =>
      obtain rfl : v.entryFor r enabled priority = e := Answer.entry.inj (Except.ok.inj hanswer)
      exact ⟨front, back, hat, rfl, ⟨hdraft, hkept, List.mem_append_right _ List.mem_cons_self⟩,
        fun w hw d hd => h.id_ne_entryFor hv hfresh hw hd⟩

/-- **What is added can be taken back.** The id of an entry that is added to a version of a
reachable ruleset was that of no entry, in whatever version. Deleting it again gives the entry back
and leaves the ruleset as it was. So it does after other edits of the version, as long as they leave
the entry alone: of the version the entry goes and nothing else, and what is left is what the edits
that succeeded make of the ruleset as it was. -/
theorem Reachable.delete_after_add (h : s.Reachable) (hv : v ∈ s.versions) {r : RuleVersion}
    {enabled : Bool} {given : Option Int64} {entry : Entry} {s' : Ruleset}
    (hadd : (Operation.edit v.id (.addEntry r enabled given)).perform.run s =
      (.ok (.entry entry), s')) :
    (∀ w ∈ s.versions, ∀ e ∈ w.entries, e.id ≠ entry.id) ∧
    (Operation.edit v.id (.deleteEntry entry.id)).perform.run s' = (.ok (.entry entry), s) ∧
    ∀ es : List VersionEdit, (∀ d ∈ es, d.Spares entry.id) →
      ∃ front w back pre post,
        s'.after (es.map (.edit v.id)) = { s with versions := front ++ w :: back } ∧
        w.id = v.id ∧ w.entries = pre ++ entry :: post ∧
        (Operation.edit v.id (.deleteEntry entry.id)).perform.run
            (s'.after (es.map (.edit v.id))) =
          (.ok (.entry entry),
            { s with versions := front ++ { w with entries := pre ++ post } :: back }) ∧
        s.after (s'.succeeding (es.map (.edit v.id))) =
          { s with versions := front ++ { w with entries := pre ++ post } :: back } := by
  obtain ⟨front, back, hat, rfl, hadded, hnew⟩ := h.exists_added hv hadd
  have hat' : FirstAt (fun u : Version => u.id == v.id) (front ++ v.withEntry entry :: back) front
      (v.withEntry entry) back := hat.replace (by simp [Version.withEntry])
  have hbefore : ({ s with versions := front ++ (v.withEntry entry).without entry.id :: back } :
      Ruleset) = s := by
    rw [Version.without_withEntry (hnew v hv), ← hat.eq]
  have htaken := fun (es : List VersionEdit) (hes : ∀ d ∈ es, d.Spares entry.id) =>
    exists_deleted_after (s := { s with versions := _ }) hat' hadded hes
  refine ⟨hnew, ?_, fun es hes => ?_⟩
  · -- The deletion comes at once, after no edits at all.
    obtain ⟨w, pre, post, -, -, -, hdelete, hrest⟩ := htaken [] nofun
    rw [← hbefore]
    exact hdelete.trans (congrArg _ hrest.symm)
  · obtain ⟨w, pre, post, hafter, hid, hentries, hdelete, hrest⟩ := htaken es hes
    refine ⟨front, w, back, pre, post, hafter, hid, hentries, hdelete, ?_⟩
    exact (congrArg (fun t : Ruleset => t.after _) hbefore.symm).trans hrest

/-- The entry that the third version gets. -/
def speedEntry : Entry :=
  { id := "rs:v3:speed:1"
    ruleId := "speed"
    ruleVersionId := "speed:1"
    enabled := true
    priority := some 2
    ruleStatus := some .approved
    archived := false }

/-- The addition of the entry. -/
def speedAddition : Operation :=
  .edit "rs:v3" (.addEntry ⟨"speed:1", "speed", .approved, false⟩ true (some 2))

/-- Before the entry is deleted another one comes and goes, an old one is moved, the version is
parallel for a while, and an addition fails. -/
def detour : List VersionEdit :=
  [.addEntry ⟨"land:1", "land", .approved, false⟩ true (some 3),
   .addEntry ⟨"test:1", "test", .approved, false⟩ true (some 2),
   .patchEntry "rs:v3:limit:1" (some false) (some 4),
   .updateSettings (some .parallel) (.set (.ofJson (.string "BLOCK"))),
   .addEntry ⟨"limit", "limit", .draft, false⟩ true none, .deleteEntry "rs:v3:land:1"]

/-- The ruleset with the entry. -/
def withSpeed : Ruleset := cardFraud.after (threeStages ++ [speedAddition])

theorem delete_after_detour :
    (cardFraud.after threeStages).Reachable ∧
      speedAddition.perform.run (cardFraud.after threeStages) =
        (.ok (.entry speedEntry), withSpeed) ∧
      (Operation.edit "rs:v3" (.deleteEntry "rs:v3:speed:1")).perform.run withSpeed =
        (.ok (.entry speedEntry), cardFraud.after threeStages) ∧
      (withSpeed.succeeding (detour.map (.edit "rs:v3"))).length = 5 ∧
      (Operation.edit "rs:v3" (.deleteEntry "rs:v3:speed:1")).perform.run
          (withSpeed.after (detour.map (.edit "rs:v3"))) =
        (.ok (.entry speedEntry), (cardFraud.after threeStages).after
          (withSpeed.succeeding (detour.map (.edit "rs:v3")))) := by
  have hreach : (cardFraud.after threeStages).Reachable := reachable_after_cardFraud (by decide)
  have hadd : speedAddition.perform.run (cardFraud.after threeStages) =
      (.ok (.entry speedEntry), withSpeed) := rfl
  obtain ⟨-, hdelete, hlater⟩ := hreach.delete_after_add (List.mem_of_getElem? (i := 2) rfl) hadd
  obtain ⟨front, w, back, pre, post, -, -, -, hrun, hrest⟩ := hlater detour (by decide)
  exact ⟨hreach, hadd, hdelete, by decide, hrun.trans (congrArg (Prod.mk _) hrest.symm)⟩

end Ruleset

end Rulebook
