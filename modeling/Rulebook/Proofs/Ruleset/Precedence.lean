import Rulebook.Proofs.Ruleset.Step

/-!
# Changing precedences everywhere

The operations on a ruleset look into a precedence for one thing only, whether there is one. So a
map of precedences that keeps this may be applied everywhere, to the ruleset and to what is asked
for: the operations then do the same, with the map applied to what they answer and leave.

That an edit does under a map what another does without it is put together along the way the edits
are, so each operation is gone through once.

* `Rulebook.Edit.Maps` – an edit that does under maps what another does;
* `Rulebook.Change.mapPrecedence`, `Rulebook.Version.mapPrecedence`,
  `Rulebook.Ruleset.mapPrecedence`, `Rulebook.Answer.mapPrecedence`,
  `Rulebook.Operation.mapPrecedence` – a map of precedences, applied everywhere;
* `Rulebook.Operation.maps_perform` – **operations under such a map**.
-/

namespace Rulebook

/-! ### Edits under a map -/

namespace Edit

variable {σ τ α β γ δ : Type} {f : σ → τ} {g : α → β} {h : γ → δ}

/-- **An edit that does under maps what another does**: in the state that another state is mapped
to, it gives the result that the other result is mapped to, or the same error, and so for the state
that is left. -/
def Maps (f : σ → τ) (g : α → β) (e : Edit σ α) (e' : Edit τ β) : Prop :=
  ∀ s, e'.run (f s) = ((e.run s).1.map g, f (e.run s).2)

theorem maps_pure (a : α) : Maps f g (pure a) (pure (g a)) := fun _ => rfl

theorem maps_fail (x : RuleError) : Maps f g (fail x) (fail x) := fun _ => rfl

theorem maps_state : Maps f f state state := fun _ => rfl

theorem maps_lift {r : Except RuleError α} {r' : Except RuleError β} (hr : r' = r.map g) :
    Maps f g (lift r) (lift r') := by
  intro s
  rw [run_lift, run_lift, hr]

theorem maps_modify {m : σ → σ} {m' : τ → τ} (hm : ∀ s, m' (f s) = f (m s)) :
    Maps f id (modify m) (modify m') := by
  intro s
  rw [run_modify, run_modify, hm]
  rfl

theorem maps_require (holds : Bool) (x : RuleError) :
    Maps f id (require holds x) (require holds x) := by
  cases holds
  · exact fun _ => rfl
  · exact fun _ => rfl

namespace Maps

variable {e : Edit σ α} {e' : Edit τ β}

/-- One after the other. -/
theorem bind (he : Maps f g e e') {c : α → Edit σ γ} {c' : β → Edit τ δ}
    (hc : ∀ a, Maps f h (c a) (c' (g a))) : Maps f h (e >>= c) (e' >>= c') := by
  intro s
  rw [run_bind, run_bind, he s]
  rcases hrun : e.run s with ⟨x | a, s'⟩
  · rfl
  · exact hc a s'

theorem map (he : Maps f g e e') {k : α → γ} {k' : β → δ} (hk : ∀ a, k' (g a) = h (k a)) :
    Maps f h (k <$> e) (k' <$> e') := by
  intro s
  rw [run_map, run_map, he s]
  rcases hrun : e.run s with ⟨x | a, s'⟩
  · rfl
  · exact Prod.ext (congrArg Except.ok (hk a)) rfl

/-- A test that both have to pass. -/
theorem require_bind {c : Unit → Edit σ γ} {c' : Unit → Edit τ δ} (hc : Maps f h (c ()) (c' ()))
    (holds : Bool) (x : RuleError) : Maps f h (require holds x >>= c) (require holds x >>= c') :=
  (maps_require holds x).bind fun _ => hc

theorem modify_bind {m : σ → σ} {m' : τ → τ} (hm : ∀ s, m' (f s) = f (m s)) {c : Unit → Edit σ γ}
    {c' : Unit → Edit τ δ} (hc : Maps f h (c ()) (c' ())) :
    Maps f h (modify m >>= c) (modify m' >>= c') :=
  (maps_modify hm).bind fun _ => hc

end Maps

/-! ### Items of lists under a map -/

section

variable {σ' τ' : Type} {F : τ → τ'} {k : σ → σ'} {items : τ → List σ} {items' : τ' → List σ'}
  {put : τ → List σ → τ} {put' : τ' → List σ' → τ'} {picks : σ → Bool} {picks' : σ' → Bool}
  {missing : RuleError} {e : Edit σ α} {e' : Edit σ' β}

theorem onFirst_map (he : Maps k g e e') (hpicks : ∀ x, picks' (k x) = picks x) (xs : List σ) :
    onFirst picks' e' (xs.map k) =
      (onFirst picks e xs).map fun (r, ys) => (r.map g, ys.map k) := by
  induction xs with
  | nil => rfl
  | cons x xs ih =>
    rw [List.map_cons, onFirst, onFirst, hpicks, he x, ih]
    by_cases hx : picks x = true
    · simp [hx]
    · simp only [hx, Bool.false_eq_true, if_false, Option.map_map]
      rfl

/-- An edit of one item does under maps what another does, if the items correspond. -/
theorem Maps.within (he : Maps k g e e') (hitems : ∀ t, items' (F t) = (items t).map k)
    (hput : ∀ t xs, put' (F t) (xs.map k) = F (put t xs)) (hpicks : ∀ x, picks' (k x) = picks x) :
    Maps F g (within items put missing picks e) (within items' put' missing picks' e') := by
  intro t
  simp only [run, Edit.within, hitems, onFirst_map he hpicks]
  rcases onFirst picks e (items t) with _ | ⟨r, ys⟩
  · rfl
  · exact Prod.ext rfl (hput t ys)

end

end Edit

/-! ### A map of precedences, applied everywhere -/

variable {f : Option Opaque → Option Opaque}

/-- **A map of precedences that operations do not see**: it keeps whether there is one, and that
there is nothing at all. -/
structure KeepsPrecedence (f : Option Opaque → Option Opaque) : Prop where
  /-- There is one exactly if there was. -/
  hasPrecedence_eq (p : Option Opaque) : Version.hasPrecedence (f p) = Version.hasPrecedence p
  /-- What is absent stays so. -/
  none_eq : f none = none

/-- What is asked for, under the map. -/
def Change.mapPrecedence (f : Option Opaque → Option Opaque) : Change Opaque → Change Opaque
  | .keep => .keep
  | .clear => .clear
  | .set o =>
    match f (some o) with
    | some o' => .set o'
    | none => .clear

theorem Change.apply_mapPrecedence (hf : KeepsPrecedence f) (c : Change Opaque)
    (p : Option Opaque) : (c.mapPrecedence f).apply (f p) = f (c.apply p) := by
  cases c with
  | keep => rfl
  | clear => exact hf.none_eq.symm
  | set o =>
    rw [mapPrecedence]
    cases ho : f (some o) <;> exact ho.symm

/-- A version under the map. -/
def Version.mapPrecedence (f : Option Opaque → Option Opaque) (v : Version) : Version :=
  { v with precedence := f v.precedence }

/-- A ruleset under the map. -/
def Ruleset.mapPrecedence (f : Option Opaque → Option Opaque) (s : Ruleset) : Ruleset :=
  { s with versions := s.versions.map (Version.mapPrecedence f) }

/-- An answer under the map. -/
def Answer.mapPrecedence (f : Option Opaque → Option Opaque) : Answer → Answer
  | .version v => .version (v.mapPrecedence f)
  | .entry e => .entry e
  | .done => .done

/-- An edit of a version under the map. -/
def VersionEdit.mapPrecedence (f : Option Opaque → Option Opaque) : VersionEdit → VersionEdit
  | .updateSettings mode precedence => .updateSettings mode (precedence.mapPrecedence f)
  | e => e

/-- An operation under the map. -/
def Operation.mapPrecedence (f : Option Opaque → Option Opaque) : Operation → Operation
  | .edit id e => .edit id (e.mapPrecedence f)
  | op => op

/-! ### What the operations do under the map -/

section

variable (hf : KeepsPrecedence f)

include hf

theorem requirePrecedence_map (mode : Mode) (p : Option Opaque) :
    Version.requirePrecedence mode (f p) = Version.requirePrecedence mode p := by
  rw [Version.requirePrecedence, Version.requirePrecedence, hf.hasPrecedence_eq]

theorem start_map (rulesetId : String) (number : UInt32) (mode : Mode) (p : Option Opaque)
    (createdBy : String) :
    Version.start rulesetId number mode (f p) createdBy =
      (Version.start rulesetId number mode p createdBy).map (Version.mapPrecedence f) := by
  rw [Version.start, Version.start, requirePrecedence_map hf]
  cases Version.requirePrecedence mode p <;> rfl

theorem maps_updateSettings (mode : Option Mode) (precedence : Change Opaque) :
    Edit.Maps (Version.mapPrecedence f) id (Version.updateSettings mode precedence)
      (Version.updateSettings mode (precedence.mapPrecedence f)) := by
  refine Edit.maps_state.bind fun v => .require_bind ?_ _ _
  have happly : (precedence.mapPrecedence f).apply (v.mapPrecedence f).precedence =
      f (precedence.apply v.precedence) := Change.apply_mapPrecedence hf precedence v.precedence
  rw [happly]
  have hgate : Version.requirePrecedence (mode.getD v.mode) (f (precedence.apply v.precedence)) =
      (Version.requirePrecedence (mode.getD v.mode) (precedence.apply v.precedence)).map id := by
    rw [requirePrecedence_map hf]
    cases Version.requirePrecedence (mode.getD v.mode) (precedence.apply v.precedence) <;> rfl
  exact (Edit.maps_lift hgate).bind fun _ => Edit.maps_modify fun w => rfl

theorem maps_addEntry (r : RuleVersion) (enabled : Bool) (given : Option Int64) :
    Edit.Maps (Version.mapPrecedence f) id (Version.addEntry r enabled given)
      (Version.addEntry r enabled given) := by
  refine Edit.maps_state.bind fun v => .require_bind ?_ _ _
  have hgate : Version.hasPrecedence (v.mapPrecedence f).precedence =
      Version.hasPrecedence v.precedence := hf.hasPrecedence_eq v.precedence
  rw [hgate]
  refine .require_bind (.require_bind (.require_bind ?_ _ _) _ _) _ _
  have hpriority : (v.mapPrecedence f).newPriority given = (v.newPriority given).map id := by
    change v.newPriority given = _
    cases v.newPriority given <;> rfl
  refine (Edit.maps_lift hpriority).bind fun priority => ?_
  refine .modify_bind ?_ ?_
  · exact fun w => rfl
  · exact Edit.maps_pure _

omit hf in
theorem maps_patchEntry (id' : String) (enabled : Option Bool) (priority : Option Int64) :
    Edit.Maps (Version.mapPrecedence f) id (Version.patchEntry id' enabled priority)
      (Version.patchEntry id' enabled priority) := by
  have hpatch : Edit.Maps id id (Version.patch enabled priority) (Version.patch enabled priority) :=
    fun e => by rw [id, Version.run_patch]; rfl
  have hentry : Edit.Maps (Version.mapPrecedence f) id
      (Version.onEntry id' (Version.patch enabled priority))
      (Version.onEntry id' (Version.patch enabled priority)) := by
    rw [Version.onEntry_eq_within]
    exact hpatch.within (fun v => (List.map_id v.entries).symm)
      (fun v es => by rw [List.map_id]; rfl) fun _ => rfl
  refine Edit.maps_state.bind fun v => .require_bind (.require_bind ?_ _ _) _ _
  cases priority with
  | none => exact hentry
  | some p => exact .require_bind (.require_bind hentry _ _) _ _

omit hf in
theorem maps_deleteEntry (id' : String) :
    Edit.Maps (Version.mapPrecedence f) id (Version.deleteEntry id')
      (Version.deleteEntry id') := by
  refine Edit.maps_state.bind fun v => ?_
  have hentries : (v.mapPrecedence f).entries = v.entries := rfl
  rw [hentries]
  cases v.entries.find? fun e => e.id == id' with
  | none => exact Edit.maps_fail _
  | some entry =>
    refine .require_bind ?_ _ _
    refine .modify_bind ?_ ?_
    · exact fun w => rfl
    · exact Edit.maps_pure entry

/-- **Edits of a version under the map.** -/
theorem VersionEdit.maps_perform (e : VersionEdit) :
    Edit.Maps (Version.mapPrecedence f) (fun a => a) e.perform (e.mapPrecedence f).perform := by
  cases e with
  | updateSettings mode precedence =>
    exact (maps_updateSettings hf mode precedence).bind fun _ => Edit.maps_pure _
  | addEntry r enabled given => exact (maps_addEntry hf r enabled given).map fun _ => rfl
  | patchEntry id' enabled priority =>
    exact (maps_patchEntry id' enabled priority).map fun _ => rfl
  | deleteEntry id' => exact (maps_deleteEntry id').map fun _ => rfl

/-! ### Looking versions up under the map -/

omit hf in
theorem version?_map (s : Ruleset) (id' : String) :
    (s.mapPrecedence f).version? id' = (s.version? id').map (Version.mapPrecedence f) := by
  rw [Ruleset.version?, Ruleset.version?, Ruleset.mapPrecedence, List.find?_map]
  rfl

omit hf in
theorem version_map (s : Ruleset) (id' : String) :
    (s.mapPrecedence f).version id' = (s.version id').map (Version.mapPrecedence f) := by
  rw [Ruleset.version, Ruleset.version, version?_map]
  cases s.version? id' <;> rfl

omit hf in
theorem latest?_map (s : Ruleset) :
    (s.mapPrecedence f).latest? = s.latest?.map (Version.mapPrecedence f) :=
  Ruleset.latest?_mapVersions (g := Version.mapPrecedence f) (fun _ => rfl) s

omit hf in
theorem promote_map (id' actor : String) (v : Version) :
    Ruleset.promote id' actor (v.mapPrecedence f) =
      (Ruleset.promote id' actor v).mapPrecedence f := by
  unfold Ruleset.promote
  change (if v.id == id' then _ else if v.status == .active then _ else _) = _
  split
  · rfl
  · split <;> rfl

/-! ### The life of versions under the map -/

theorem maps_newVersion (createdBy : String) :
    Edit.Maps (Ruleset.mapPrecedence f) (Version.mapPrecedence f) (Ruleset.newVersion createdBy)
      (Ruleset.newVersion createdBy) := by
  refine Edit.maps_state.bind fun s => ?_
  rw [latest?_map]
  cases s.latest? with
  | none => exact Edit.maps_fail _
  | some latest =>
    refine (Edit.maps_lift (start_map hf s.id (latest.number + 1) latest.mode latest.precedence
      createdBy)).bind fun next => ?_
    refine .modify_bind ?_ ?_
    · intro t
      simp only [Ruleset.mapPrecedence, List.map_append]
      rfl
    · exact Edit.maps_pure _

omit hf in
theorem maps_onVersion {α β : Type} {g : α → β} {e : Edit Version α} {e' : Edit Version β}
    (he : Edit.Maps (Version.mapPrecedence f) g e e') (id' : String) :
    Edit.Maps (Ruleset.mapPrecedence f) g (Ruleset.onVersion id' e) (Ruleset.onVersion id' e') := by
  rw [Ruleset.onVersion_eq_within, Ruleset.onVersion_eq_within]
  exact he.within (fun s => rfl) (fun s vs => rfl) fun v => rfl

omit hf in
theorem maps_approve (id' actor : String) :
    Edit.Maps (Ruleset.mapPrecedence f) (Version.mapPrecedence f) (Ruleset.approve id' actor)
      (Ruleset.approve id' actor) := by
  refine maps_onVersion (Edit.maps_state.bind fun v => .require_bind ?_ _ _) id'
  refine .modify_bind ?_ ?_
  · exact fun w => rfl
  · exact Edit.maps_state

omit hf in
theorem maps_activateFor (owner : Option String) (id' actor : String) :
    Edit.Maps (Ruleset.mapPrecedence f) (Version.mapPrecedence f)
      (Ruleset.activateFor owner id' actor) (Ruleset.activateFor owner id' actor) := by
  refine Edit.maps_state.bind fun s => ?_
  refine (Edit.maps_lift (version_map s id')).bind fun target => ?_
  refine .require_bind (.require_bind ?_ _ _) _ _
  refine .modify_bind ?_ ?_
  · intro t
    simp only [Ruleset.mapPrecedence, List.map_map]
    congr 1
    exact List.map_congr_left fun v _ => promote_map id' actor v
  · exact Edit.maps_state.bind fun t => Edit.maps_lift (version_map t id')

/-- **The operations under the map** do the same, with the map applied to what they answer and
leave. -/
theorem Operation.maps_perform (op : Operation) :
    Edit.Maps (Ruleset.mapPrecedence f) (Answer.mapPrecedence f) op.perform
      (op.mapPrecedence f).perform := by
  cases op with
  | newVersion createdBy => exact (maps_newVersion hf createdBy).map fun _ => rfl
  | approve id' actor => exact (maps_approve id' actor).map fun _ => rfl
  | activate id' actor => exact (maps_activateFor none id' actor).map fun _ => rfl
  | rollback rulesetId id' actor =>
    exact (maps_activateFor (some rulesetId) id' actor).map fun _ => rfl
  | edit id' e =>
    rw [mapPrecedence, perform_edit, perform_edit]
    refine (maps_onVersion (VersionEdit.maps_perform hf e) id').map fun answer => ?_
    cases answer <;> rfl

end

end Rulebook
