import Rulebook.Proofs.Ruleset.ModeSwitch

/-!
# The order of running

The entries of a sequential version are run by priority. What this comes to is said here without
sorting: no entry stands behind one that has to be run later, and entries of one priority, or
without any, stay as they were added. This leaves a single order, so it does not matter how it is
arrived at.

In a version that the check accepts no priority comes twice. There the order is a matter of the
entries alone: what was added first, and what was moved or removed on the way, cannot be seen in
it.

* `Rulebook.Entry.MayPrecede`, `Rulebook.Entry.Before` – when an entry may be run before another
  one, and when it has to be;
* `Rulebook.Entry.InOrder` – **a list puts entries in order**, and `Rulebook.Entry.InOrder.eq` –
  no other list does;
* `Rulebook.Version.runOrder_spec` – the order in which a version is run.
-/

namespace Rulebook

/-! ### Entries in order -/

namespace Entry

/-- **An entry may be run before another one**: if it has a priority, the other one has a priority
that is no lower. -/
def MayPrecede (d e : Entry) : Prop := ∀ p, d.priority = some p → ∃ q, e.priority = some q ∧ p ≤ q

/-- **An entry has to be run before another one**: both have priorities, and the other one's is
higher. -/
def Before (d e : Entry) : Prop := ∃ p q, d.priority = some p ∧ e.priority = some q ∧ p < q

variable {c d e : Entry} {added xs ys : List Entry}

theorem placeLe_iff : Version.placeLe d.priority e.priority = true ↔ d.MayPrecede e := by
  unfold MayPrecede
  rcases d.priority with _ | p
  · simp [Version.placeLe]
  · rcases e.priority with _ | q
    · simp [Version.placeLe]
    · simp [Version.placeLe]

theorem MayPrecede.trans (h : c.MayPrecede d) (h' : d.MayPrecede e) : c.MayPrecede e := by
  intro p hp
  obtain ⟨q, hq, hpq⟩ := h p hp
  obtain ⟨r, hr, hqr⟩ := h' q hq
  exact ⟨r, hr, Int64.le_trans hpq hqr⟩

/-- Of two entries one may be run before the other. -/
theorem mayPrecede_total (d e : Entry) : d.MayPrecede e ∨ e.MayPrecede d := by
  rcases hd : d.priority with _ | p
  · exact Or.inl fun p hp => by simp [hd] at hp
  · rcases he : e.priority with _ | q
    · exact Or.inr fun q hq => by simp [he] at hq
    · rcases Int64.le_total p q with hpq | hqp
      · exact Or.inl fun p' hp' => ⟨q, he, by simpa [← Option.some.inj (hd.symm.trans hp')]⟩
      · exact Or.inr fun q' hq' => ⟨p, hd, by simpa [← Option.some.inj (he.symm.trans hq')]⟩

/-- Where each of two entries may be run before the other, they have one priority, or none. -/
theorem MayPrecede.priority_eq (h : d.MayPrecede e) (h' : e.MayPrecede d) :
    d.priority = e.priority := by
  rcases hd : d.priority with _ | p
  · rcases he : e.priority with _ | q
    · rfl
    · obtain ⟨p, hp, -⟩ := h' q he
      rw [hd] at hp
      cases hp
  · obtain ⟨q, hq, hpq⟩ := h p hd
    obtain ⟨p', hp', hqp⟩ := h' q hq
    obtain rfl := Option.some.inj (hd.symm.trans hp')
    rw [hq, Int64.le_antisymm hpq hqp]

theorem Before.asymm (h : d.Before e) : ¬e.Before d := by
  rintro ⟨q', p', hq', hp', hqp⟩
  obtain ⟨p, q, hp, hq, hpq⟩ := h
  obtain rfl := Option.some.inj (hp.symm.trans hp')
  obtain rfl := Option.some.inj (hq.symm.trans hq')
  exact Int64.lt_asymm hpq hqp

/-- **A list puts entries in order**, given as they were added. -/
structure InOrder (added ordered : List Entry) : Prop where
  /-- It has the same entries, each as often. -/
  perm : ordered.Perm added
  /-- No entry stands behind one that has to be run later. -/
  mayPrecede : ordered.Pairwise MayPrecede
  /-- Entries of one priority, or without any, stay as they were added. -/
  stable : ∀ p : Option Int64,
    (ordered.filter fun e => e.priority == p) = added.filter fun e => e.priority == p

/-- **Sorting by priority** puts entries in order. -/
theorem inOrder_mergeSort (added : List Entry) :
    InOrder added (added.mergeSort fun d e => Version.placeLe d.priority e.priority) := by
  have htrans : ∀ c d e : Entry, Version.placeLe c.priority d.priority = true →
      Version.placeLe d.priority e.priority = true →
      Version.placeLe c.priority e.priority = true := by
    simp only [placeLe_iff]
    exact fun c d e => MayPrecede.trans
  have htotal : ∀ d e : Entry, (Version.placeLe d.priority e.priority ||
      Version.placeLe e.priority d.priority) = true := by
    simp only [Bool.or_eq_true, placeLe_iff]
    exact mayPrecede_total
  have hperm := List.mergeSort_perm added fun d e => Version.placeLe d.priority e.priority
  refine ⟨hperm, (List.pairwise_mergeSort htrans htotal added).imp placeLe_iff.mp, fun p => ?_⟩
  -- Among entries of one priority every order will do, so sorting leaves them as they are.
  have hsame : (added.filter fun e => e.priority == p).Pairwise
      fun d e => Version.placeLe d.priority e.priority = true := by
    refine List.pairwise_of_forall_mem_list fun d hd e he => ?_
    have hdp : d.priority = p := by simpa using (List.mem_filter.mp hd).2
    have hep : e.priority = p := by simpa using (List.mem_filter.mp he).2
    exact placeLe_iff.mpr fun q hq => ⟨q, by rw [hep, ← hdp, hq], Int64.le_refl q⟩
  have hsublist := (List.sublist_mergeSort htrans htotal hsame List.filter_sublist).filter
    fun e => e.priority == p
  simp only [List.filter_filter, Bool.and_self] at hsublist
  exact (hsublist.eq_of_length (hperm.filter _).length_eq.symm).symm

theorem mem_iff_of_filter_eq (h : ∀ p : Option Int64,
    (xs.filter fun e => e.priority == p) = ys.filter fun e => e.priority == p) :
    e ∈ xs ↔ e ∈ ys := by
  have hmem : ∀ zs : List Entry, e ∈ zs ↔ e ∈ zs.filter fun d => d.priority == e.priority := by
    simp
  rw [hmem xs, hmem ys, h]

/-- Lists in which no entry stands behind one that has to be run later are the same if for each
priority the entries with it are. -/
theorem eq_of_filter_eq (hx : xs.Pairwise MayPrecede) (hy : ys.Pairwise MayPrecede)
    (h : ∀ p : Option Int64,
      (xs.filter fun e => e.priority == p) = ys.filter fun e => e.priority == p) : xs = ys := by
  induction xs generalizing ys with
  | nil =>
    refine (List.eq_nil_iff_forall_not_mem.mpr fun e he => ?_).symm
    exact absurd ((mem_iff_of_filter_eq h).mpr he) List.not_mem_nil
  | cons x xs ih =>
    cases ys with
    | nil => exact absurd ((mem_iff_of_filter_eq h).mp List.mem_cons_self) List.not_mem_nil
    | cons y ys =>
      obtain ⟨hxhead, hxtail⟩ := List.pairwise_cons.mp hx
      obtain ⟨hyhead, hytail⟩ := List.pairwise_cons.mp hy
      -- Each of the two first entries is somewhere in the other list.
      have hpriority : x.priority = y.priority := by
        rcases List.mem_cons.mp ((mem_iff_of_filter_eq h).mp List.mem_cons_self) with rfl | hxy
        · rfl
        · rcases List.mem_cons.mp ((mem_iff_of_filter_eq h).mpr List.mem_cons_self) with rfl | hyx
          · rfl
          · exact (hxhead y hyx).priority_eq (hyhead x hxy)
      have hfirst := h x.priority
      rw [List.filter_cons_of_pos (by simp), List.filter_cons_of_pos (by simp [hpriority])]
        at hfirst
      obtain rfl : x = y := (List.cons.inj hfirst).1
      rw [ih hxtail hytail fun p => ?_]
      have hp := h p
      rw [List.filter_cons, List.filter_cons] at hp
      split at hp
      · exact (List.cons.inj hp).2
      · exact hp

/-- **There is only one list that puts entries in order.** -/
theorem InOrder.eq (hx : InOrder added xs) (hy : InOrder added ys) : xs = ys :=
  eq_of_filter_eq hx.mayPrecede hy.mayPrecede fun p => (hx.stable p).trans (hy.stable p).symm

/-- **What keeps priorities keeps entries in order.** -/
theorem InOrder.map {f : Entry → Entry} (h : InOrder added xs)
    (hf : ∀ e, (f e).priority = e.priority) : InOrder (added.map f) (xs.map f) where
  perm := h.perm.map f
  mayPrecede := by
    simp only [List.pairwise_map, MayPrecede, hf]
    exact h.mayPrecede
  stable p := by
    simp only [List.filter_map, Function.comp_def, hf, h.stable p]

end Entry

/-! ### The order in which a version is run -/

namespace Version

variable {v w : Version}

theorem runOrder_of_parallel (h : v.mode = .parallel) : v.runOrder = v.entries := by
  simp [runOrder, h]

/-- **A sequential version** is run in order. -/
theorem inOrder_runOrder (h : v.mode = .sequential) : Entry.InOrder v.entries v.runOrder := by
  have hsorted : v.runOrder = v.entries.mergeSort fun d e => placeLe d.priority e.priority := by
    simp [runOrder, h]
  rw [hsorted]
  exact Entry.inOrder_mergeSort v.entries

theorem runOrder_perm (v : Version) : v.runOrder.Perm v.entries := by
  cases h : v.mode with
  | parallel => rw [runOrder_of_parallel h]
  | sequential => exact (inOrder_runOrder h).perm

/-- **In a sequential version that the check accepts** the priorities go up strictly in the order of
running. -/
theorem Valid.pairwise_before_runOrder (h : v.Valid) (hmode : v.mode = .sequential) :
    v.runOrder.Pairwise Entry.Before := by
  have hdistinct := (v.runOrder_perm.symm).pairwise
    (List.pairwise_filterMap.mp (h.priorities hmode))
    fun hne p hp q hq => (hne q hq p hp).symm
  refine ((inOrder_runOrder hmode).mayPrecede.and hdistinct).imp_of_mem ?_
  rintro d e hd - ⟨hprecede, hne⟩
  obtain ⟨p, hp⟩ := Option.ne_none_iff_exists'.mp
    (h.prioritised hmode d (v.runOrder_perm.mem_iff.mp hd))
  obtain ⟨q, hq, hpq⟩ := hprecede p hp
  exact ⟨p, q, hp, hq, Int64.lt_of_le_of_ne hpq (hne p hp q hq)⟩

/-- **The order of adding does not matter** to the order of running of a version that the check
accepts. -/
theorem Valid.runOrder_eq_of_perm (hv : v.Valid) (hw : w.Valid) (hvmode : v.mode = .sequential)
    (hwmode : w.mode = .sequential) (h : v.entries.Perm w.entries) : v.runOrder = w.runOrder :=
  List.Perm.eq_of_pairwise (fun _ _ _ _ hde hed => absurd hed hde.asymm)
    (hv.pairwise_before_runOrder hvmode) (hw.pairwise_before_runOrder hwmode)
    ((v.runOrder_perm.trans h).trans w.runOrder_perm.symm)

/-- **The order in which a version is run.** It has the entries of the version, each as often. A
parallel version has them as they were added; in a sequential version the order is the one and only
list that puts them in order. Two sequential versions that the check accepts, and that have the same
entries up to their order, are run in the same order, with priorities that go up strictly. -/
theorem runOrder_spec (v w : Version) :
    v.runOrder.Perm v.entries ∧
      (v.mode = .parallel → v.runOrder = v.entries) ∧
      (v.mode = .sequential → ∀ es, es = v.runOrder ↔ Entry.InOrder v.entries es) ∧
      (v.mode = .sequential → w.mode = .sequential → v.check = .ok () → w.check = .ok () →
        v.entries.Perm w.entries → v.runOrder = w.runOrder ∧ v.runOrder.Pairwise Entry.Before) := by
  refine ⟨v.runOrder_perm, runOrder_of_parallel, fun hmode es => ?_, ?_⟩
  · constructor
    · rintro rfl
      exact inOrder_runOrder hmode
    · exact fun hes => hes.eq (inOrder_runOrder hmode)
  · intro hvmode hwmode hv hw hperm
    have hvalid := check_eq_ok_iff.mp hv
    exact ⟨hvalid.runOrder_eq_of_perm (check_eq_ok_iff.mp hw) hvmode hwmode hperm,
      hvalid.pairwise_before_runOrder hvmode⟩

/-- A sequential draft without entries. -/
def emptyDraft : Version := Ruleset.firstVersion Ruleset.cardFraudInput

/-- Three entries are added, each with its priority. -/
def straightEdits : List VersionEdit :=
  [.addEntry ⟨"speed:1", "speed", .approved, false⟩ true (some 1),
   .addEntry ⟨"limit:1", "limit", .approved, false⟩ true (some 3),
   .addEntry ⟨"land:1", "land", .approved, false⟩ true (some 2)]

/-- The same entries are added in another order. One of them is moved, to the priority of an entry
that has gone again by then. -/
def roundaboutEdits : List VersionEdit :=
  [.addEntry ⟨"limit:1", "limit", .approved, false⟩ true (some 1),
   .addEntry ⟨"test:1", "test", .draft, false⟩ false (some 3),
   .addEntry ⟨"land:1", "land", .approved, false⟩ true (some 2),
   .deleteEntry "rs:v1:test:1",
   .patchEntry "rs:v1:limit:1" none (some 3),
   .addEntry ⟨"speed:1", "speed", .approved, false⟩ true (some 1)]

theorem runOrder_after_roundaboutEdits :
    (emptyDraft.after straightEdits).check = .ok () ∧
      (emptyDraft.after roundaboutEdits).check = .ok () ∧
      (emptyDraft.after straightEdits).entries.Perm (emptyDraft.after roundaboutEdits).entries ∧
      (emptyDraft.after straightEdits).entries ≠ (emptyDraft.after roundaboutEdits).entries ∧
      (emptyDraft.after straightEdits).runOrder = (emptyDraft.after roundaboutEdits).runOrder ∧
      (emptyDraft.after straightEdits).runOrder.Pairwise Entry.Before := by
  have hperm : (emptyDraft.after straightEdits).entries.Perm
      (emptyDraft.after roundaboutEdits).entries := by decide
  obtain ⟨-, -, -, heq⟩ :=
    runOrder_spec (emptyDraft.after straightEdits) (emptyDraft.after roundaboutEdits)
  exact ⟨rfl, rfl, hperm, by decide, heq rfl rfl rfl rfl hperm⟩

end Version

end Rulebook
