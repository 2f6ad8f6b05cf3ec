import Rulebook.Proofs.Ruleset.Place
import Rulebook.Proofs.Ruleset.SingleActive

/-!
# What an operation leaves alone

An operation that fails leaves everything alone. One that succeeds changes the version it is
addressed to, and an activation takes the status of being active from the others; a version that
is started comes last, behind all that were there. And what has been frozen stays as it was
frozen, whatever is done: an edit is refused by its own check, and no operation addressed to
another version comes near.

* `Rulebook.Ruleset.succeeding` – the operations of a history that succeed;
* `Rulebook.Ruleset.eq_of_run_perform_error` – operations that fail change nothing, and can be
  left out of a history;
* `Rulebook.Operation.getElem?_run_perform` – what becomes of all other versions;
* `Rulebook.Ruleset.Reachable.frozen_and_frame` – frozen versions, and the other versions, in a
  reachable ruleset.
-/

namespace Rulebook

variable {s s' : Ruleset} {op : Operation} {a : Answer} {id : String} {v : Version} {i : Nat}

/-! ### Operations that fail -/

namespace Operation

/-- Whether an operation succeeds. -/
def succeeds (op : Operation) (s : Ruleset) : Bool :=
  match (op.perform.run s).1 with
  | .ok _ => true
  | .error _ => false

theorem succeeds_iff :
    op.succeeds s = true ↔ ∃ a, s.Performed op a (op.perform.run s).2 := by
  unfold succeeds
  rcases hrun : op.perform.run s with ⟨x | a, s'⟩
  · refine iff_of_false Bool.false_ne_true ?_
    rintro ⟨a, hperf⟩
    have hok := run_perform_eq_ok_iff.mpr hperf
    rw [hrun] at hok
    cases hok
  · exact iff_of_true rfl ⟨a, run_perform_eq_ok_iff.mp hrun⟩

theorem run_perform_of_not_succeeds (h : op.succeeds s = false) : (op.perform.run s).2 = s := by
  rcases op.performed_or_eq s with heq | hperf
  · exact heq
  · rw [succeeds_iff.mpr hperf] at h
    cases h

end Operation

namespace Ruleset

/-- **The operations of a history that succeed.** -/
def succeeding : Ruleset → List Operation → List Operation
  | _, [] => []
  | s, op :: ops =>
    if op.succeeds s then op :: succeeding (op.perform.run s).2 ops
    else succeeding (op.perform.run s).2 ops

/-- **A history leads where its successful operations lead.** -/
theorem after_succeeding (s : Ruleset) (ops : List Operation) :
    s.after (s.succeeding ops) = s.after ops := by
  induction ops generalizing s with
  | nil => rfl
  | cons op ops ih =>
    rw [succeeding, after_cons]
    split
    · rw [after_cons, ih]
    · next hfailed =>
      have heq : (op.perform.run s).2 = s :=
        Operation.run_perform_of_not_succeeds (by simpa using hfailed)
      rw [heq, ih]

/-- **An operation that fails leaves the ruleset as it is**, whatever ruleset it is; so the
operations that fail can be left out of a history. -/
theorem eq_of_run_perform_error (s : Ruleset) :
    (∀ (op : Operation) (x : RuleError) (s' : Ruleset),
        op.perform.run s = (.error x, s') → s' = s) ∧
      ∀ ops, s.after ops = s.after (s.succeeding ops) :=
  ⟨fun op x s' hrun => op.atomic_perform s x s' hrun, fun ops => (after_succeeding s ops).symm⟩

/-- The one activation that comes too early changes nothing. -/
theorem eq_of_early_activation :
    (∃ x s', (Operation.activate "rs:v1" "lead").perform.run cardFraud = (.error x, s') ∧
        s' = cardFraud) ∧
      (cardFraud.succeeding twoReleases).length + 1 = twoReleases.length ∧
      cardFraud.after twoReleases = cardFraud.after (cardFraud.succeeding twoReleases) := by
  obtain ⟨hfailed, hall⟩ := eq_of_run_perform_error cardFraud
  exact ⟨⟨_, _, rfl, hfailed (.activate "rs:v1" "lead") _ _ rfl⟩, by decide, hall twoReleases⟩

/-! ### Other versions -/

/-- A step changes nothing but the versions. -/
theorem Performed.eq_with_versions (h : s.Performed op a s') :
    s' = { s with versions := s'.versions } := by
  cases h <;> rfl

/-- A step finds the version that it is addressed to. -/
theorem Performed.exists_id_eq (h : s.Performed op a s') (htarget : op.target? = some id) :
    ∃ v ∈ s.versions, v.id = id := by
  have hid : ∀ {pre post : List Version} {u : Version} {other : String},
      FirstAt (fun w : Version => w.id == other) s.versions pre u post → other = id →
        ∃ v ∈ s.versions, v.id = id := by
    intro pre post u other hat heq
    exact ⟨u, hat.mem, (by simpa using hat.picked : u.id = other).trans heq⟩
  cases h with
  | started => cases htarget
  | approved hat hdraft => exact hid hat (Option.some.inj htarget)
  | activated hfound =>
    obtain ⟨pre, post, hat⟩ := exists_firstAt_of_find? hfound
    rw [Operation.target?_activation] at htarget
    exact hid hat (Option.some.inj htarget)
  | edited hat hedit => exact hid hat (Option.some.inj htarget)

/-- **A step leaves every version alone that it is not addressed to**, but for an activation, to
which the version that was active gives way. -/
theorem Performed.getElem?_of_id_ne (h : s.Performed op a s') (htarget : op.target? = some id)
    (hv : s.versions[i]? = some v) (hne : v.id ≠ id) :
    s'.versions[i]? = some (if op.activates then v.yielded else v) := by
  obtain ⟨v', hv', hbecame⟩ := h.exists_became hv
  rw [hv', hbecame.eq_of_id_ne htarget hne]

end Ruleset

namespace Operation

/-- **What becomes of a version that an operation is not addressed to**, also if the operation
fails. -/
theorem getElem?_run_perform (htarget : op.target? = some id) (hv : s.versions[i]? = some v)
    (hne : v.id ≠ id) :
    (op.perform.run s).2.versions[i]? =
      some (if op.activates && op.succeeds s then v.yielded else v) := by
  cases hsucceeds : op.succeeds s with
  | false =>
    rw [run_perform_of_not_succeeds hsucceeds, Bool.and_false]
    exact hv
  | true =>
    obtain ⟨a, hperf⟩ := succeeds_iff.mp hsucceeds
    rw [Bool.and_true]
    exact hperf.getElem?_of_id_ne htarget hv hne

/-- An operation that starts no version leaves as many versions as there were, and all else of
the ruleset. -/
theorem exists_versions_run_perform (s : Ruleset) (hop : op.startsVersion = false) :
    ∃ versions, (op.perform.run s).2 = { s with versions } ∧
      versions.length = s.versions.length := by
  refine ⟨(op.perform.run s).2.versions, ?_⟩
  rcases op.performed_or_eq s with heq | ⟨a, hperf⟩
  · rw [heq]
    exact ⟨rfl, rfl⟩
  · exact ⟨hperf.eq_with_versions, hperf.length_eq hop⟩

/-- An operation addressed to no version of the ruleset changes nothing. -/
theorem run_perform_of_forall_id_ne (htarget : op.target? = some id)
    (h : ∀ v ∈ s.versions, v.id ≠ id) : (op.perform.run s).2 = s := by
  rcases op.performed_or_eq s with heq | ⟨a, hperf⟩
  · exact heq
  · obtain ⟨v, hv, hid⟩ := hperf.exists_id_eq htarget
    exact absurd hid (h v hv)

/-- Starting a version only adds it. -/
theorem exists_append_run_newVersion (s : Ruleset) (createdBy : String) :
    ∃ added : List Version, added.length ≤ 1 ∧
      ((newVersion createdBy).perform.run s).2 =
        { s with versions := s.versions ++ added } := by
  rcases (newVersion createdBy).performed_or_eq s with heq | ⟨a, hperf⟩
  · refine ⟨[], Nat.zero_le 1, ?_⟩
    rw [heq, List.append_nil]
  · obtain ⟨author, latest, -, -, hgrown⟩ := hperf.of_startsVersion rfl
    exact ⟨[s.successor latest author], Nat.le_refl 1, hgrown⟩

end Operation

/-! ### Reachable rulesets -/

namespace Ruleset

/-- Versions at different places have different ids. -/
theorem Numbered.id_ne (h : s.Numbered) {j : Nat} {w : Version} (hv : s.versions[i]? = some v)
    (hw : s.versions[j]? = some w) (hne : j ≠ i) : w.id ≠ v.id := by
  intro hid
  have hlt : j < (s.versions.map Version.id).length := by
    rw [List.length_map]
    exact (List.getElem?_eq_some_iff.mp hw).1
  refine hne ((List.getElem?_inj hlt h.nodup_ids).mp ?_)
  rw [List.getElem?_map, List.getElem?_map, hv, hw, Option.map_some, Option.map_some, hid]

/-- **What is frozen stays, and what is not addressed is left alone.** A version of a reachable
ruleset that is no draft keeps its place, and all but its status and who activated it, along
every history. An operation addressed to one version leaves all others as they are, except that
the active one gives way to an activation that succeeds; addressed to none, it changes nothing.
And a version that is started comes behind all that were there. -/
theorem Reachable.frozen_and_frame (h : s.Reachable) :
    (∀ ops (i : Nat) (v : Version), s.versions[i]? = some v → v.status ≠ .draft →
      ∃ v', (s.after ops).versions[i]? = some v' ∧
        v' = { v with status := v'.status, activatedBy := v'.activatedBy }) ∧
    (∀ (op : Operation) (id : String), op.target? = some id →
      (∃ versions, (op.perform.run s).2 = { s with versions } ∧
        versions.length = s.versions.length) ∧
      ((∀ v ∈ s.versions, v.id ≠ id) → (op.perform.run s).2 = s) ∧
      ∀ (i : Nat) (v : Version), s.versions[i]? = some v → v.id = id →
        ∀ (j : Nat) (w : Version), s.versions[j]? = some w → j ≠ i →
          (op.perform.run s).2.versions[j]? =
            some (if op.activates && op.succeeds s then w.yielded else w)) ∧
    ∀ createdBy, ∃ added : List Version, added.length ≤ 1 ∧
      ((Operation.newVersion createdBy).perform.run s).2 =
        { s with versions := s.versions ++ added } := by
  refine ⟨fun ops i v hv hfrozen => ?_, fun op id htarget => ⟨?_, ?_, ?_⟩, fun createdBy => ?_⟩
  · obtain ⟨v', hv', hpreserved⟩ := exists_preserved_after ops hv
    exact ⟨v', hv', (hpreserved.frozen hfrozen).2⟩
  · have hop : op.startsVersion = false := by
      cases op with
      | newVersion => cases htarget
      | _ => rfl
    exact Operation.exists_versions_run_perform s hop
  · exact Operation.run_perform_of_forall_id_ne htarget
  · rintro i v hv rfl j w hw hne
    exact Operation.getElem?_run_perform htarget hw (h.numbered.id_ne hv hw hne)
  · exact Operation.exists_append_run_newVersion s createdBy

/-- The first version gives way to the second and is addressed by edits in vain. -/
def supersession : List Operation :=
  [.activate "rs:v2" "lead", .edit "rs:v1" (.deleteEntry "rs:v1:limit:1"), .newVersion "analyst"]

theorem frozen_after_supersession :
    (cardFraud.after twoReleases).Reachable ∧
      ∃ v v', (cardFraud.after twoReleases).versions[0]? = some v ∧ v.status = .active ∧
        ((cardFraud.after twoReleases).after supersession).versions[0]? = some v' ∧
        v' = { v with status := v'.status, activatedBy := v'.activatedBy } ∧
        ((Operation.activate "rs:v2" "lead").perform.run
          (cardFraud.after twoReleases)).2.versions[0]? = some v.yielded := by
  have hreach : (cardFraud.after twoReleases).Reachable := reachable_after_cardFraud (by decide)
  obtain ⟨hfrozen, hframe, -⟩ := hreach.frozen_and_frame
  obtain ⟨v', hv', heq⟩ := hfrozen supersession 0 _ rfl (by decide)
  obtain ⟨-, -, hothers⟩ := hframe (.activate "rs:v2" "lead") "rs:v2" rfl
  exact ⟨hreach, _, v', rfl, rfl, hv', heq, hothers 1 _ rfl rfl 0 _ rfl (by decide)⟩

end Ruleset

end Rulebook
