import Rulebook.Proofs.Ruleset.Numbering

/-!
# What an operation makes of the version at a place

No operation takes a version away or moves it, so a version is followed through a history by the
place it stands at. Here a step is read place by place: a relation says what may become of one
version, whatever else the step does, and what all its cases keep is kept along every history.
Nothing is asked of the ruleset – ids may come twice, and it need not be accepted by the check.

* `Rulebook.Operation.target?` – the version that an operation is addressed to;
* `Rulebook.Version.Became` – the relation, with one case for each kind of change;
* `Rulebook.Ruleset.Performed.exists_became` – a step leads from the version at a place to one
  that is related to it;
* `Rulebook.Version.Preserved` – what is kept of a version: its label, and when it is no draft
  all but its status and who activated it;
* `Rulebook.Ruleset.exists_preserved_after` – it is kept along every history.
-/

namespace Rulebook

/-! ### What an operation is addressed to -/

namespace Operation

/-- **The version that an operation is addressed to**, by its id. -/
def target? : Operation → Option String
  | .newVersion _ => none
  | .approve id _ | .activate id _ | .rollback _ id _ | .edit id _ => some id

/-- Whether an operation is an activation. -/
def activates : Operation → Bool
  | .activate _ _ | .rollback _ _ _ => true
  | _ => false

@[simp] theorem target?_activation (owner : Option String) (id actor : String) :
    (activation owner id actor).target? = some id := by
  cases owner <;> rfl

@[simp] theorem activates_activation (owner : Option String) (id actor : String) :
    (activation owner id actor).activates = true := by
  cases owner <;> rfl

end Operation

namespace Version

variable {v v' v'' : Version} {op : Operation} {id : String}

/-! ### The changes -/

/-- A version, made active by someone. -/
def activated (v : Version) (actor : String) : Version :=
  { v with status := .active, activatedBy := some actor }

/-- A version that gives way to one that is activated: if it was active, it is approved again. -/
def yielded (v : Version) : Version :=
  if v.status = .active then { v with status := .approved, activatedBy := none } else v

theorem yielded_of_active (h : v.status = .active) :
    v.yielded = { v with status := .approved, activatedBy := none } := if_pos h

theorem yielded_of_ne_active (h : v.status ≠ .active) : v.yielded = v := if_neg h

/-- An activation makes the versions with the id active, and all others give way. -/
theorem promote_eq_ite (id actor : String) (v : Version) :
    Ruleset.promote id actor v = if v.id = id then v.activated actor else v.yielded := by
  split
  · next hid => exact Ruleset.promote_of_eq hid
  · next hid =>
    unfold yielded
    split
    · next hactive => exact Ruleset.promote_of_active hid hactive
    · next hactive => exact Ruleset.promote_of_ne hid hactive

/-- **What may become of a version** in one step. -/
inductive Became (v : Version) : Operation → Version → Prop where
  /-- It stays as it is, unless the operation is an activation. -/
  | same {op : Operation} (passive : op.activates = false) : Became v op v
  /-- It is frozen, if it is a draft. -/
  | frozen {actor : String} (draft : v.status = .draft) :
      Became v (.approve v.id actor) (v.freeze actor)
  /-- It is activated. -/
  | activated {owner : Option String} {actor : String} :
      Became v (.activation owner v.id actor) (v.activated actor)
  /-- It gives way to a version with another id. -/
  | yielded {owner : Option String} {id actor : String} (other : v.id ≠ id) :
      Became v (.activation owner id actor) v.yielded
  /-- It is edited. -/
  | edited {e : VersionEdit} {answer : Option Entry} {v' : Version} (edit : v.Edited e answer v') :
      Became v (.edit v.id e) v'

/-- **A version that the operation is not addressed to** stays as it is, but for an activation,
to which it gives way. -/
theorem Became.eq_of_id_ne (h : v.Became op v') (htarget : op.target? = some id)
    (hne : v.id ≠ id) : v' = if op.activates then v.yielded else v := by
  cases h with
  | same hpassive => rw [hpassive, if_neg Bool.false_ne_true]
  | frozen => exact absurd (Option.some.inj htarget) hne
  | activated =>
    rw [Operation.target?_activation] at htarget
    exact absurd (Option.some.inj htarget) hne
  | yielded => rw [Operation.activates_activation, if_pos rfl]
  | edited => exact absurd (Option.some.inj htarget) hne

/-! ### What is kept -/

/-- **What is kept of a version** in a later one at the same place. -/
structure Preserved (v v' : Version) : Prop where
  /-- Its id, its ruleset and its number. -/
  label : v'.label = v.label
  /-- When it is no draft, it never is one again, and all but its status and who activated it. -/
  frozen : v.status ≠ .draft →
    v'.status ≠ .draft ∧ v' = { v with status := v'.status, activatedBy := v'.activatedBy }

theorem Preserved.refl (v : Version) : v.Preserved v := ⟨rfl, fun h => ⟨h, rfl⟩⟩

theorem Preserved.trans (h : v.Preserved v') (h' : v'.Preserved v'') : v.Preserved v'' := by
  refine ⟨h'.label.trans h.label, fun hfrozen => ?_⟩
  obtain ⟨hfrozen', heq⟩ := h.frozen hfrozen
  obtain ⟨hfrozen'', heq'⟩ := h'.frozen hfrozen'
  refine ⟨hfrozen'', ?_⟩
  rw [heq] at heq'
  exact heq'

theorem preserved_yielded (v : Version) : v.Preserved v.yielded := by
  unfold yielded
  split
  · exact ⟨rfl, fun _ => ⟨by simp, rfl⟩⟩
  · exact .refl v

/-- **Every change keeps it.** -/
theorem Became.preserved (h : v.Became op v') : v.Preserved v' := by
  cases h with
  | same => exact .refl v
  | frozen hdraft => exact ⟨rfl, fun hfrozen => absurd hdraft hfrozen⟩
  | activated => exact ⟨rfl, fun _ => ⟨by simp [Version.activated], rfl⟩⟩
  | yielded => exact preserved_yielded v
  | edited hedit =>
    refine ⟨?_, fun hfrozen => absurd hedit.draft hfrozen⟩
    exact label_eq_iff.mpr ⟨hedit.id_eq, hedit.rulesetId_eq, hedit.number_eq⟩

theorem Preserved.id_eq (h : v.Preserved v') : v'.id = v.id := (label_eq_iff.mp h.label).1

end Version

variable {s s' : Ruleset} {op : Operation} {a : Answer} {v : Version} {i : Nat}

/-! ### One step -/

namespace Ruleset

/-- A step that starts no version leaves as many versions as there were. -/
theorem Performed.length_eq (h : s.Performed op a s') (hop : op.startsVersion = false) :
    s'.versions.length = s.versions.length := by
  simpa [labels] using congrArg List.length (h.labels_eq hop).2

/-- **A step leads from the version at a place** to one that may become of it. -/
theorem Performed.exists_became (h : s.Performed op a s') (hv : s.versions[i]? = some v) :
    ∃ v', s'.versions[i]? = some v' ∧ v.Became op v' := by
  cases h with
  | @started createdBy latest hfound hfits =>
    refine ⟨v, ?_, .same rfl⟩
    rw [List.getElem?_append_left (List.getElem?_eq_some_iff.mp hv).1, hv]
  | @approved id actor pre post u hat hdraft =>
    rcases hat.getElem?_replace (u.freeze actor) hv with ⟨rfl, hnew⟩ | hold
    · obtain rfl : v.id = id := by simpa using hat.picked
      exact ⟨_, hnew, .frozen hdraft⟩
    · exact ⟨v, hold, .same rfl⟩
  | @activated owner id actor u hfound howned hfrozen =>
    refine ⟨promote id actor v, by rw [List.getElem?_map, hv, Option.map_some], ?_⟩
    rw [Version.promote_eq_ite]
    split
    · next hid =>
      subst hid
      exact .activated
    · next hid => exact .yielded hid
  | @edited id e answer pre post u u' hat hedit =>
    rcases hat.getElem?_replace u' hv with ⟨rfl, hnew⟩ | hold
    · obtain rfl : v.id = id := by simpa using hat.picked
      exact ⟨_, hnew, .edited hedit⟩
    · exact ⟨v, hold, .same rfl⟩

/-- **What was not there before is a draft.** -/
theorem Performed.status_eq_draft (h : s.Performed op a s') (hv : s'.versions[i]? = some v)
    (hi : s.versions.length ≤ i) : v.status = .draft := by
  by_cases hop : op.startsVersion = true
  · obtain ⟨createdBy, latest, -, -, rfl⟩ := h.of_startsVersion hop
    rw [List.getElem?_append_right hi] at hv
    obtain rfl := List.mem_singleton.mp (List.mem_of_getElem? hv)
    rfl
  · have hlength := h.length_eq (by simpa using hop)
    rw [List.getElem?_eq_none (by omega)] at hv
    cases hv

end Ruleset

/-! ### Whole histories -/

/-- **What is kept of a version is kept along every history**, at the same place. -/
theorem Ruleset.exists_preserved_after (ops : List Operation) (hv : s.versions[i]? = some v) :
    ∃ v', (s.after ops).versions[i]? = some v' ∧ v.Preserved v' := by
  induction ops generalizing s v with
  | nil => exact ⟨v, hv, .refl v⟩
  | cons op ops ih =>
    rw [after_cons]
    rcases op.performed_or_eq s with heq | ⟨a, hperf⟩
    · rw [heq]
      exact ih hv
    · obtain ⟨u, hu, hbecame⟩ := hperf.exists_became hv
      obtain ⟨v', hv', hpreserved⟩ := ih hu
      exact ⟨v', hv', hbecame.preserved.trans hpreserved⟩

end Rulebook
