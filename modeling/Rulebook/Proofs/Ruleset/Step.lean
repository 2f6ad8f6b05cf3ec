import Rulebook.Proofs.Ruleset.VersionStep
import Rulebook.Ruleset.History

/-!
# What an operation makes of a ruleset

One step of a history, read as a relation: when an operation succeeds, what it answers and
which ruleset it leaves. An invariant of rulesets is shown once for each case of the relation,
and holds along all histories by `Rulebook.Ruleset.after_induction`.

* `Rulebook.Ruleset.Performed` – the relation, with one case for each kind of operation;
* `Rulebook.Operation.run_perform_eq_ok_iff` – it is what the operations do when they succeed;
* `Rulebook.Operation.atomic_perform` – an operation that fails changes nothing;
* `Rulebook.Ruleset.latest?_eq_some`, `Rulebook.Ruleset.latest?_eq_none` – the version that a
  new one is made from;
* `Rulebook.Ruleset.cardFraud` – a new ruleset, to begin a history with.
-/

namespace Rulebook

/-! ### The latest version -/

namespace Ruleset

/-- The later of the best version so far and the next one; of two with the same number, the
next one. -/
def laterOf (best : Option Version) (v : Version) : Option Version :=
  match best with
  | some b => if v.number < b.number then some b else some v
  | none => some v

theorem latest?_eq_foldl (s : Ruleset) : s.latest? = s.versions.foldl laterOf none := rfl

/-- The fold ends with a version that is one of those it went through and has the highest
number of them. -/
theorem foldl_laterOf (vs : List Version) (b : Version) :
    ∃ w, vs.foldl laterOf (some b) = some w ∧ w ∈ b :: vs ∧ ∀ v ∈ b :: vs, v.number ≤ w.number := by
  induction vs generalizing b with
  | nil => exact ⟨b, rfl, List.mem_cons_self, fun v hv => by simp_all⟩
  | cons v vs ih =>
    by_cases hlt : v.number < b.number
    · obtain ⟨w, hw, hmem, hmax⟩ := ih b
      refine ⟨w, by simpa [laterOf, hlt] using hw, by grind, ?_⟩
      have hb : b.number ≤ w.number := hmax b List.mem_cons_self
      intro u hu
      rcases List.mem_cons.mp hu with rfl | hu
      · exact hb
      rcases List.mem_cons.mp hu with rfl | hu
      · exact UInt32.le_trans (UInt32.le_of_lt hlt) hb
      · exact hmax u (List.mem_cons_of_mem _ hu)
    · obtain ⟨w, hw, hmem, hmax⟩ := ih v
      refine ⟨w, by simpa [laterOf, hlt] using hw, List.mem_cons_of_mem _ hmem, ?_⟩
      have hv : v.number ≤ w.number := hmax v List.mem_cons_self
      intro u hu
      rcases List.mem_cons.mp hu with rfl | hu
      · exact UInt32.le_trans (UInt32.not_lt.mp hlt) hv
      · exact hmax u hu

variable {s : Ruleset} {latest : Version}

theorem latest?_eq_none : s.latest? = none ↔ s.versions = [] := by
  rw [latest?_eq_foldl]
  rcases hvs : s.versions with _ | ⟨v, vs⟩
  · simp
  · obtain ⟨w, hw, -⟩ := foldl_laterOf vs v
    have hfold : (v :: vs).foldl laterOf none = some w := hw
    simp [hfold]

/-- **The latest version** is a version of the ruleset, and none has a higher number. -/
theorem latest?_eq_some (h : s.latest? = some latest) :
    latest ∈ s.versions ∧ ∀ v ∈ s.versions, v.number ≤ latest.number := by
  rw [latest?_eq_foldl] at h
  rcases hvs : s.versions with _ | ⟨v, vs⟩
  · simp [hvs] at h
  · obtain ⟨w, hw, hmem, hmax⟩ := foldl_laterOf vs v
    have hfold : (v :: vs).foldl laterOf none = some w := hw
    rw [hvs, hfold] at h
    obtain rfl := Option.some.inj h
    exact ⟨hmem, hmax⟩

/-- A ruleset with the same done to each of its versions. -/
def mapVersions (f : Version → Version) (s : Ruleset) : Ruleset :=
  { s with versions := s.versions.map f }

theorem mapVersions_congr {f g : Version → Version} (h : ∀ v ∈ s.versions, f v = g v) :
    s.mapVersions f = s.mapVersions g := by
  rw [mapVersions, mapVersions, List.map_congr_left h]

/-- What keeps the numbers of versions keeps which one is the latest. -/
theorem latest?_mapVersions {g : Version → Version} (hg : ∀ v, (g v).number = v.number)
    (s : Ruleset) : (s.mapVersions g).latest? = s.latest?.map g := by
  have hlater : ∀ (best : Option Version) (v : Version),
      laterOf (best.map g) (g v) = (laterOf best v).map g := by
    rintro (_ | b) v
    · rfl
    · simp only [laterOf, Option.map_some, hg]
      split <;> rfl
  have hfold : ∀ (vs : List Version) (best : Option Version),
      (vs.map g).foldl laterOf (best.map g) = (vs.foldl laterOf best).map g := by
    intro vs
    induction vs with
    | nil => exact fun _ => rfl
    | cons v vs ih =>
      intro best
      rw [List.map_cons, List.foldl_cons, List.foldl_cons, hlater, ih]
  rw [latest?_eq_foldl, latest?_eq_foldl]
  exact hfold s.versions none

end Ruleset

/-! ### The changes -/

/-- The version that comes after the latest one: its settings and entries under a new number. -/
def Ruleset.successor (s : Ruleset) (latest : Version) (createdBy : String) : Version :=
  let number := latest.number + 1
  { id := Version.idOf s.id number
    rulesetId := s.id
    number
    status := .draft
    mode := latest.mode
    precedence := latest.precedence
    createdBy
    approvedBy := none
    activatedBy := none
    entries := Ruleset.copyEntries (Version.idOf s.id number) latest.entries }

/-- If there is room for it, the version that comes next is numbered one higher. -/
theorem Ruleset.toNat_successor_number {s : Ruleset} {latest : Version} (hroom : s.HasRoom)
    (hlatest : latest ∈ s.versions) (createdBy : String) :
    (s.successor latest createdBy).number.toNat = latest.number.toNat + 1 := by
  change (latest.number + 1).toNat = latest.number.toNat + 1
  rw [UInt32.toNat_add]
  exact Nat.mod_eq_of_lt (hroom latest hlatest)

/-- A version, frozen by someone. -/
def Version.freeze (v : Version) (actor : String) : Version :=
  { v with status := .approved, approvedBy := some actor }

namespace Ruleset

variable {id actor : String} {v : Version}

/-- The version with the id becomes active. -/
theorem promote_of_eq (h : v.id = id) :
    promote id actor v = { v with status := .active, activatedBy := some actor } := by
  simp [promote, h]

/-- An active version with another id is approved again. -/
theorem promote_of_active (h : v.id ≠ id) (hactive : v.status = .active) :
    promote id actor v = { v with status := .approved, activatedBy := none } := by
  simp [promote, h, hactive]

/-- All else stays as it is. -/
theorem promote_of_ne (h : v.id ≠ id) (hactive : v.status ≠ .active) :
    promote id actor v = v := by
  simp [promote, h, hactive]

/-- **A version is active after an activation** exactly if it has the id that is activated. -/
theorem promote_status_eq_active_iff : (promote id actor v).status = .active ↔ v.id = id := by
  by_cases h : v.id = id
  · simp [promote_of_eq h, h]
  · by_cases hactive : v.status = .active
    · simp [promote_of_active h hactive, h]
    · simp [promote_of_ne h hactive, h, hactive]

/-- An activation touches nothing but the status and who activated the version. -/
theorem promote_eq : promote id actor v =
    { v with status := (promote id actor v).status,
             activatedBy := (promote id actor v).activatedBy } := by
  unfold promote
  split
  · rfl
  · split <;> rfl

@[simp] theorem promote_id : (promote id actor v).id = v.id := by
  rw [promote_eq]

@[simp] theorem promote_rulesetId : (promote id actor v).rulesetId = v.rulesetId := by
  rw [promote_eq]

@[simp] theorem promote_number : (promote id actor v).number = v.number := by
  rw [promote_eq]

/-- Look-ups by id find, after an activation, what it made of the versions they found before. -/
theorem version?_mapVersions_promote {s : Ruleset} {id' : String} (hv : s.version? id' = some v) :
    (s.mapVersions (promote id actor)).version? id' = some (promote id actor v) := by
  rw [version?, mapVersions, List.find?_map]
  simp only [Function.comp_def, promote_id]
  rw [← version?, hv, Option.map_some]

/-! ### When each operation succeeds -/

variable {s s' : Ruleset} {next : Version}

theorem start_eq_ok_iff {rulesetId createdBy : String} {number : UInt32} {mode : Mode}
    {precedence : Option Opaque} :
    Version.start rulesetId number mode precedence createdBy = .ok v ↔
      (mode = .parallel → Version.hasPrecedence precedence = true) ∧
        v = { id := Version.idOf rulesetId number, rulesetId, number, status := .draft, mode,
              precedence, createdBy, approvedBy := none, activatedBy := none, entries := [] } := by
  rw [← Version.requirePrecedence_eq_ok_iff (u := ())]
  unfold Version.start
  rcases Version.requirePrecedence mode precedence with x | u
  · simp [bind, Except.bind]
  · simp [bind, Except.bind, pure, Except.pure, eq_comm]

/-- The first version of a new ruleset. -/
def firstVersion (input : NewRuleset) : Version :=
  { id := Version.idOf input.id 1
    rulesetId := input.id
    number := 1
    status := .draft
    mode := input.mode
    precedence := input.precedence
    createdBy := input.createdBy
    approvedBy := none
    activatedBy := none
    entries := [] }

theorem create_eq_ok_iff {input : NewRuleset} :
    create input = .ok s ↔
      (input.mode = .parallel → Version.hasPrecedence input.precedence = true) ∧
        s = { id := input.id, name := input.name, description := input.description,
              tags := input.tags, createdBy := input.createdBy,
              versions := [firstVersion input] } := by
  have hstart : Version.start input.id 1 input.mode input.precedence input.createdBy =
      .ok (firstVersion input) ↔ _ := start_eq_ok_iff
  unfold create
  rcases hrun : Version.start input.id 1 input.mode input.precedence input.createdBy with x | v
  · rw [hrun] at hstart
    have hunfit : ¬(input.mode = .parallel → Version.hasPrecedence input.precedence = true) :=
      fun h => by simpa using hstart.mpr ⟨h, rfl⟩
    simp [bind, Except.bind, hunfit]
  · obtain ⟨hfits, rfl⟩ := start_eq_ok_iff.mp hrun
    constructor
    · intro h
      exact ⟨hfits, (Except.ok.inj h).symm⟩
    · rintro ⟨-, rfl⟩
      rfl

theorem run_newVersion_eq_ok_iff {createdBy : String} :
    (newVersion createdBy).run s = (.ok next, s') ↔
      ∃ latest, s.latest? = some latest ∧
        (latest.mode = .parallel → Version.hasPrecedence latest.precedence = true) ∧
        next = s.successor latest createdBy ∧ s' = { s with versions := s.versions ++ [next] } := by
  simp only [newVersion, Edit.run_state_bind]
  rcases hlatest : s.latest? with _ | latest
  · simp
  · simp only [Edit.run_lift_bind_eq_ok_iff, start_eq_ok_iff, Edit.run_modify_bind, Edit.run_pure,
      Prod.mk.injEq, Except.ok.injEq]
    constructor
    · rintro ⟨_, ⟨hfits, rfl⟩, rfl, rfl⟩
      exact ⟨latest, rfl, hfits, rfl, rfl⟩
    · rintro ⟨_, hsome, hfits, rfl, rfl⟩
      obtain rfl := Option.some.inj hsome
      exact ⟨_, ⟨hfits, rfl⟩, rfl, rfl⟩

theorem run_approve_eq_ok_iff :
    (approve id actor).run s = (.ok next, s') ↔
      ∃ pre v post, FirstAt (fun w : Version => w.id == id) s.versions pre v post ∧
        v.status = .draft ∧ next = v.freeze actor ∧
        s' = { s with versions := pre ++ v.freeze actor :: post } := by
  simp only [approve, run_onVersion_eq_ok_iff, Edit.run_state_bind, Edit.run_modify_bind,
    Edit.run_require_bind_eq_ok_iff, Version.isDraft_iff, Edit.run_state, Prod.mk.injEq,
    Except.ok.injEq]
  constructor
  · rintro ⟨pre, v, post, _, hat, ⟨hdraft, rfl, rfl⟩, rfl⟩
    exact ⟨pre, v, post, hat, hdraft, rfl, rfl⟩
  · rintro ⟨pre, v, post, hat, hdraft, rfl, rfl⟩
    exact ⟨pre, v, post, _, hat, ⟨hdraft, rfl, rfl⟩, rfl⟩

theorem version_eq_ok_iff : s.version id = .ok v ↔ s.version? id = some v := by
  unfold version
  rcases s.version? id with _ | w <;> simp

theorem run_activateFor_eq_ok_iff {owner : Option String} :
    (activateFor owner id actor).run s = (.ok next, s') ↔
      ∃ v, s.version? id = some v ∧ (∀ o, owner = some o → v.rulesetId = o) ∧
        v.status = .approved ∧ next = promote id actor v ∧
        s' = { s with versions := s.versions.map (promote id actor) } := by
  have howner : ∀ v : Version, (owner.all fun o => v.rulesetId == o) = true ↔
      ∀ o, owner = some o → v.rulesetId = o := by
    intro v
    cases owner <;> simp
  have hfound : ∀ v : Version, s.version? id = some v →
      ({ s with versions := s.versions.map (promote id actor) } : Ruleset).version? id =
        some (promote id actor v) := fun v hv => version?_mapVersions_promote hv
  simp only [activateFor, Edit.run_state_bind, Edit.run_lift_bind_eq_ok_iff, version_eq_ok_iff,
    Edit.run_require_bind_eq_ok_iff, howner, Edit.run_modify_bind, Edit.run_lift, Prod.mk.injEq]
  constructor
  · rintro ⟨v, hv, ho, happroved, hnext, rfl⟩
    rw [hfound v hv] at hnext
    exact ⟨v, hv, ho, by simpa using happroved, (Option.some.inj hnext).symm, rfl⟩
  · rintro ⟨v, hv, ho, happroved, rfl, rfl⟩
    exact ⟨v, hv, ho, by simp [happroved], hfound v hv, rfl⟩

/-! ### None of them fails half done -/

theorem atomic_newVersion (createdBy : String) : (newVersion createdBy).Atomic := by
  refine Edit.Atomic.state_bind fun s => ?_
  split
  · exact Edit.atomic_fail _
  · exact Edit.Atomic.lift_bind (fun _ => Edit.atomic_modify_bind _ fun s => ⟨_, s, rfl⟩) _

theorem atomic_approve (id actor : String) : (approve id actor).Atomic := by
  refine atomic_onVersion (Edit.Atomic.state_bind fun v => ?_)
  refine Edit.Atomic.require_bind ?_ _ _
  exact Edit.atomic_modify_bind _ fun v => ⟨v, v, rfl⟩

/-- An activation looks the version up twice. The second time it cannot fail, because the
change in between keeps the ids. -/
theorem atomic_activateFor (owner : Option String) (id actor : String) :
    (activateFor owner id actor).Atomic := by
  intro s x s' h
  rw [activateFor, Edit.run_state_bind] at h
  rcases hfound : s.version? id with _ | v
  · have hnone : s.version id = .error (.notFound .version) := by simp [version, hfound]
    rw [hnone, Edit.run_lift_error_bind] at h
    exact (Prod.mk.inj h).2.symm
  · have hagain : ({ s with versions := s.versions.map (promote id actor) } : Ruleset).version id =
        .ok (promote id actor v) := version_eq_ok_iff.mpr (version?_mapVersions_promote hfound)
    rw [version_eq_ok_iff.mpr hfound, Edit.run_lift_ok_bind, Edit.run_require_bind] at h
    split at h
    · rw [Edit.run_require_bind] at h
      split at h
      · rw [Edit.run_modify_bind, Edit.run_state_bind, Edit.run_lift, hagain] at h
        cases (Prod.mk.inj h).1
      · exact (Prod.mk.inj h).2.symm
    · exact (Prod.mk.inj h).2.symm

end Ruleset

/-! ### One step of a history -/

/-- The answer to an edit: the entry, if it gives one. -/
def Answer.ofEdit : Option Entry → Answer
  | some e => .entry e
  | none => .done

/-- An activation; one for a ruleset is a rollback. -/
def Operation.activation (owner : Option String) (id actor : String) : Operation :=
  match owner with
  | none => .activate id actor
  | some rulesetId => .rollback rulesetId id actor

/-- **What an operation makes of a ruleset**, if it succeeds: the answer, and the ruleset it
leaves. -/
inductive Ruleset.Performed (s : Ruleset) : Operation → Answer → Ruleset → Prop where
  /-- A version is made from the latest one, if its settings fit together, and comes last. -/
  | started {createdBy : String} {latest : Version} (found : s.latest? = some latest)
      (fits : latest.mode = .parallel → Version.hasPrecedence latest.precedence = true) :
      Performed s (.newVersion createdBy) (.version (s.successor latest createdBy))
        { s with versions := s.versions ++ [s.successor latest createdBy] }
  /-- The first version with an id is frozen, if it is a draft. -/
  | approved {id actor : String} {pre post : List Version} {v : Version}
      (found : FirstAt (fun w : Version => w.id == id) s.versions pre v post)
      (draft : v.status = .draft) :
      Performed s (.approve id actor) (.version (v.freeze actor))
        { s with versions := pre ++ v.freeze actor :: post }
  /-- The first version with an id is activated, if it is approved and belongs to the right
  ruleset; all versions are looked at. -/
  | activated {owner : Option String} {id actor : String} {v : Version}
      (found : s.version? id = some v) (owned : ∀ o, owner = some o → v.rulesetId = o)
      (frozen : v.status = .approved) :
      Performed s (.activation owner id actor) (.version (Ruleset.promote id actor v))
        { s with versions := s.versions.map (Ruleset.promote id actor) }
  /-- The first version with an id is edited. -/
  | edited {id : String} {e : VersionEdit} {answer : Option Entry} {pre post : List Version}
      {v v' : Version} (found : FirstAt (fun w : Version => w.id == id) s.versions pre v post)
      (edit : v.Edited e answer v') :
      Performed s (.edit id e) (.ofEdit answer) { s with versions := pre ++ v' :: post }

/-- A step that starts a version adds the successor of the latest one, and does nothing else. -/
theorem Ruleset.Performed.of_startsVersion {s s' : Ruleset} {op : Operation} {a : Answer}
    (h : s.Performed op a s') (hop : op.startsVersion = true) :
    ∃ createdBy latest, s.latest? = some latest ∧
      (latest.mode = .parallel → Version.hasPrecedence latest.precedence = true) ∧
      s' = { s with versions := s.versions ++ [s.successor latest createdBy] } := by
  cases h with
  | started hfound hfits => exact ⟨_, _, hfound, hfits, rfl⟩
  | @activated owner id actor v hfound howned hfrozen => cases owner <;> cases hop
  | _ => cases hop

/-- **What every change of a version keeps, a step keeps of all versions**: starting one from
another, freezing it, an activation that goes over it, and an edit. -/
theorem Ruleset.Performed.forall_versions {s s' : Ruleset} {op : Operation} {a : Answer}
    (h : s.Performed op a s') {P : Version → Prop}
    (hstart : ∀ latest createdBy, P latest → P (s.successor latest createdBy))
    (hfreeze : ∀ v actor, P v → P (v.freeze actor))
    (hpromote : ∀ v id actor, P v → P (Ruleset.promote id actor v))
    (hedit : ∀ v e answer v', P v → v.Edited e answer v' → P v')
    (hs : ∀ v ∈ s.versions, P v) : ∀ v ∈ s'.versions, P v := by
  -- Where one version is replaced, the others stand in the ruleset already.
  have hreplace : ∀ {pre post : List Version} {u w : Version}, s.versions = pre ++ u :: post →
      P w → ∀ v ∈ pre ++ w :: post, P v := by
    intro pre post u w heq hw
    rw [heq, List.forall_mem_append, List.forall_mem_cons] at hs
    rw [List.forall_mem_append, List.forall_mem_cons]
    exact ⟨hs.1, hw, hs.2.2⟩
  cases h with
  | @started createdBy latest hfound hfits =>
    have hnew := hstart latest createdBy (hs latest (latest?_eq_some hfound).1)
    exact List.forall_mem_append.mpr ⟨hs, List.forall_mem_singleton.mpr hnew⟩
  | approved hat hdraft => exact hreplace hat.eq (hfreeze _ _ (hs _ hat.mem))
  | activated hfound howned hfrozen =>
    intro v hv
    obtain ⟨w, hw, rfl⟩ := List.mem_map.mp hv
    exact hpromote w _ _ (hs w hw)
  | edited hat hedited => exact hreplace hat.eq (hedit _ _ _ _ (hs _ hat.mem) hedited)

namespace Operation

variable {op : Operation} {s s' : Ruleset} {a : Answer}

theorem perform_activation (owner : Option String) (id actor : String) :
    (activation owner id actor).perform = .version <$> Ruleset.activateFor owner id actor := by
  cases owner <;> rfl

theorem perform_edit (id : String) (e : VersionEdit) :
    (edit id e).perform = Answer.ofEdit <$> Ruleset.onVersion id e.perform := by
  have hanswer : (fun r : Option Entry => (match r with
      | some entry => pure (.entry entry)
      | none => pure .done : Edit Ruleset Answer)) = fun r => pure (Answer.ofEdit r) := by
    funext r
    cases r <;> rfl
  change Ruleset.onVersion id e.perform >>= _ = _
  exact congrArg (Ruleset.onVersion id e.perform >>= ·) hanswer

theorem performed_of_run_activation (owner : Option String) {id actor : String}
    (h : (activation owner id actor).perform.run s = (.ok a, s')) :
    s.Performed (activation owner id actor) a s' := by
  rw [perform_activation, Edit.run_map_eq_ok_iff] at h
  obtain ⟨next, hrun, rfl⟩ := h
  obtain ⟨v, hfound, howned, hfrozen, rfl, rfl⟩ := Ruleset.run_activateFor_eq_ok_iff.mp hrun
  exact .activated hfound howned hfrozen

/-- **An operation succeeds exactly when the relation says so**, with the answer and the
ruleset that the relation gives. -/
theorem run_perform_eq_ok_iff : op.perform.run s = (.ok a, s') ↔ s.Performed op a s' := by
  constructor
  · intro h
    cases op with
    | newVersion createdBy =>
      obtain ⟨next, hrun, rfl⟩ := Edit.run_map_eq_ok_iff.mp h
      obtain ⟨latest, hfound, hfits, rfl, rfl⟩ := Ruleset.run_newVersion_eq_ok_iff.mp hrun
      exact .started hfound hfits
    | approve id actor =>
      obtain ⟨next, hrun, rfl⟩ := Edit.run_map_eq_ok_iff.mp h
      obtain ⟨pre, v, post, hat, hdraft, rfl, rfl⟩ := Ruleset.run_approve_eq_ok_iff.mp hrun
      exact .approved hat hdraft
    | activate id actor => exact performed_of_run_activation none h
    | rollback rulesetId id actor => exact performed_of_run_activation (some rulesetId) h
    | edit id e =>
      rw [perform_edit, Edit.run_map_eq_ok_iff] at h
      obtain ⟨answer, hrun, rfl⟩ := h
      obtain ⟨pre, v, post, v', hat, hedit, rfl⟩ := Ruleset.run_onVersion_eq_ok_iff.mp hrun
      exact .edited hat (VersionEdit.run_perform_eq_ok_iff.mp hedit)
  · intro h
    cases h with
    | started hfound hfits =>
      exact Edit.run_map_eq_ok_iff.mpr ⟨_, Ruleset.run_newVersion_eq_ok_iff.mpr
        ⟨_, hfound, hfits, rfl, rfl⟩, rfl⟩
    | approved hat hdraft =>
      exact Edit.run_map_eq_ok_iff.mpr ⟨_, Ruleset.run_approve_eq_ok_iff.mpr
        ⟨_, _, _, hat, hdraft, rfl, rfl⟩, rfl⟩
    | @activated owner id actor v hfound howned hfrozen =>
      rw [perform_activation]
      exact Edit.run_map_eq_ok_iff.mpr ⟨_, Ruleset.run_activateFor_eq_ok_iff.mpr
        ⟨_, hfound, howned, hfrozen, rfl, rfl⟩, rfl⟩
    | edited hat hedit =>
      rw [perform_edit]
      exact Edit.run_map_eq_ok_iff.mpr ⟨_, Ruleset.run_onVersion_eq_ok_iff.mpr
        ⟨_, _, _, _, hat, VersionEdit.run_perform_eq_ok_iff.mpr hedit, rfl⟩, rfl⟩

/-- **An operation that fails changes nothing.** -/
theorem atomic_perform (op : Operation) : op.perform.Atomic := by
  cases op with
  | newVersion createdBy => exact (Ruleset.atomic_newVersion createdBy).map _
  | approve id actor => exact (Ruleset.atomic_approve id actor).map _
  | activate id actor => exact (Ruleset.atomic_activateFor none id actor).map _
  | rollback rulesetId id actor =>
    exact (Ruleset.atomic_activateFor (some rulesetId) id actor).map _
  | edit id e =>
    rw [perform_edit]
    exact (Ruleset.atomic_onVersion (VersionEdit.atomic_perform e)).map _

/-- **One step of a history** stays where it is or is a step of the relation. -/
theorem performed_or_eq (op : Operation) (s : Ruleset) :
    (op.perform.run s).2 = s ∨ ∃ a, s.Performed op a (op.perform.run s).2 := by
  rcases hrun : op.perform.run s with ⟨x | a, s'⟩
  · exact Or.inl (atomic_perform op s x s' hrun)
  · exact Or.inr ⟨a, run_perform_eq_ok_iff.mp hrun⟩

end Operation

/-! ### Whole histories -/

namespace Ruleset

theorem after_cons (s : Ruleset) (op : Operation) (ops : List Operation) :
    s.after (op :: ops) = (op.perform.run s).2.after ops := rfl

theorem after_append (s : Ruleset) (ops more : List Operation) :
    s.after (ops ++ more) = (s.after ops).after more :=
  List.foldl_append

/-- The numbers last for two lists of operations, one after the other, if they last for the first
and then for the second. -/
theorem hasRoomFor_append {s : Ruleset} {ops more : List Operation} :
    s.HasRoomFor (ops ++ more) ↔ s.HasRoomFor ops ∧ (s.after ops).HasRoomFor more := by
  induction ops generalizing s with
  | nil => exact ⟨fun h => ⟨trivial, h⟩, fun h => h.2⟩
  | cons op ops ih =>
    rw [List.cons_append, HasRoomFor, HasRoomFor, ih, after_cons, and_assoc]

/-- **What can be done to a reachable ruleset** while the numbers last leads to another one. -/
theorem Reachable.after {s : Ruleset} (h : s.Reachable) {ops : List Operation}
    (hroom : s.HasRoomFor ops) : (s.after ops).Reachable := by
  obtain ⟨input, first, done, hfirst, hdone, rfl⟩ := h
  exact ⟨input, first, done ++ ops, hfirst, hasRoomFor_append.mpr ⟨hdone, hroom⟩,
    (after_append first done ops).symm⟩

/-- **What every step keeps, a whole history keeps**, while the numbers last. -/
theorem after_induction {P : Ruleset → Prop}
    (hstep : ∀ s op a s', P s → (op.startsVersion = true → s.HasRoom) → s.Performed op a s' → P s')
    {s : Ruleset} {ops : List Operation} (h : P s) (hroom : s.HasRoomFor ops) :
    P (s.after ops) := by
  induction ops generalizing s with
  | nil => exact h
  | cons op ops ih =>
    rw [after_cons]
    refine ih ?_ hroom.2
    rcases op.performed_or_eq s with heq | ⟨a, hperf⟩
    · rw [heq]
      exact h
    · exact hstep s op a _ h hroom.1 hperf

/-- **What a new ruleset has and every step keeps, every reachable ruleset has.** -/
theorem Reachable.induction {P : Ruleset → Prop}
    (hcreate : ∀ input first, create input = .ok first → P first)
    (hstep : ∀ s op a s', P s → (op.startsVersion = true → s.HasRoom) → s.Performed op a s' → P s')
    {s : Ruleset} (h : s.Reachable) : P s := by
  obtain ⟨input, first, ops, hfirst, hroom, rfl⟩ := h
  exact after_induction hstep (hcreate input first hfirst) hroom

/-! ### A ruleset to begin with -/

/-- What the ruleset `Card fraud` is made of. -/
def cardFraudInput : NewRuleset :=
  { id := "rs"
    name := "Card fraud"
    description := ""
    tags := []
    mode := .sequential
    precedence := none
    createdBy := "analyst" }

/-- The ruleset `Card fraud`, with its first version. -/
def cardFraud : Ruleset :=
  { id := "rs"
    name := "Card fraud"
    description := ""
    tags := []
    createdBy := "analyst"
    versions := [firstVersion cardFraudInput] }

theorem create_cardFraudInput : create cardFraudInput = .ok cardFraud := rfl

/-- What is done to it while the numbers last leads to reachable states. -/
theorem reachable_after_cardFraud {ops : List Operation} (h : cardFraud.HasRoomFor ops) :
    (cardFraud.after ops).Reachable :=
  ⟨cardFraudInput, cardFraud, ops, create_cardFraudInput, h, rfl⟩

end Ruleset

end Rulebook
