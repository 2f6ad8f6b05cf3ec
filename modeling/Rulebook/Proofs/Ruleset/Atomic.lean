import Rulebook.Proofs.Ruleset.FirstItem
import Rulebook.Ruleset.Basic

/-!
# How edits succeed and fail

An edit leaves a state also if it fails, and nothing in the monad forbids it to fail half
done. The edits of this library check first and change last, which is what makes them
**atomic**: one that fails leaves the state as it found it.

* `Rulebook.Edit.run_require_bind_eq_ok_iff` and its neighbours – when a sequence of edits
  succeeds;
* `Rulebook.Edit.Atomic` – atomic edits, with one lemma for each way of putting them together;
* `Rulebook.Ruleset.run_onVersion_eq_ok_iff`, `Rulebook.Version.run_onEntry_eq_ok_iff` – what an
  edit of the first version, or of the first entry, with an id leads to.
-/

namespace Rulebook

namespace Edit

variable {σ α β : Type}

/-! ### Success -/

/-! **A sequence of edits succeeds** if the first does and the rest does after it. All
sequences begin with one of four edits, and each of them says for itself what is left to show. -/

section Sequences

variable {s s' : σ} {b : β}

theorem run_state_bind {f : σ → Edit σ β} : (state >>= f).run s = (f s).run s := rfl

theorem run_modify_bind {g : σ → σ} {f : Unit → Edit σ β} :
    (modify g >>= f).run s = (f ()).run (g s) := rfl

theorem run_require_bind {holds : Bool} {x : RuleError} {f : Unit → Edit σ β} :
    (require holds x >>= f).run s = if holds then (f ()).run s else (.error x, s) := by
  cases holds <;> rfl

theorem run_lift_ok_bind {a : α} {f : α → Edit σ β} :
    (lift (.ok a) >>= f).run s = (f a).run s := rfl

theorem run_lift_error_bind {x : RuleError} {f : α → Edit σ β} :
    (lift (.error x) >>= f).run s = (.error x, s) := rfl

theorem run_require_bind_eq_ok_iff {holds : Bool} {x : RuleError} {f : Unit → Edit σ β} :
    (require holds x >>= f).run s = (.ok b, s') ↔
      holds = true ∧ (f ()).run s = (.ok b, s') := by
  rw [run_require_bind]
  cases holds <;> simp

theorem run_lift_bind_eq_ok_iff {r : Except RuleError α} {f : α → Edit σ β} :
    (lift r >>= f).run s = (.ok b, s') ↔ ∃ a, r = .ok a ∧ (f a).run s = (.ok b, s') := by
  cases r with
  | ok a => simp [run_lift_ok_bind]
  | error x => simp [run_lift_error_bind]

end Sequences

theorem run_map_eq_ok_iff {f : α → β} {e : Edit σ α} {s s' : σ} {b : β} :
    (f <$> e).run s = (.ok b, s') ↔ ∃ a, e.run s = (.ok a, s') ∧ f a = b := by
  rw [run_map]
  rcases e.run s with ⟨r | r, s₁⟩
  · simp
  · simp only [Prod.mk.injEq, Except.ok.injEq]
    constructor
    · rintro ⟨rfl, rfl⟩
      exact ⟨r, ⟨rfl, rfl⟩, rfl⟩
    · rintro ⟨a, ⟨rfl, rfl⟩, rfl⟩
      exact ⟨rfl, rfl⟩

/-! ### Failure -/

/-- **An edit is atomic** if it leaves the state alone whenever it fails. -/
def Atomic (e : Edit σ α) : Prop := ∀ s x s', e.run s = (.error x, s') → s' = s

theorem atomic_fail (x : RuleError) : (fail x : Edit σ α).Atomic := by
  intro s y s' h
  exact (Prod.mk.inj h).2.symm

/-- A check before an atomic edit keeps it atomic: nothing has been changed yet. -/
theorem Atomic.require_bind {f : Unit → Edit σ α} (h : (f ()).Atomic) (holds : Bool)
    (x : RuleError) : (require holds x >>= f).Atomic := by
  intro s y s' hrun
  rw [run_require_bind] at hrun
  split at hrun
  · exact h s y s' hrun
  · exact (Prod.mk.inj hrun).2.symm

theorem Atomic.lift_bind {f : β → Edit σ α} (h : ∀ b, (f b).Atomic) (r : Except RuleError β) :
    (lift r >>= f).Atomic := by
  intro s y s' hrun
  cases r with
  | ok b => exact h b s y s' hrun
  | error x => exact (Prod.mk.inj hrun).2.symm

theorem Atomic.state_bind {f : σ → Edit σ α} (h : ∀ s, (f s).Atomic) : (state >>= f).Atomic :=
  fun s y s' hrun => h s s y s' hrun

/-- **A change comes last**: after it nothing may fail. -/
theorem atomic_modify_bind (g : σ → σ) {f : Unit → Edit σ α}
    (h : ∀ s, ∃ a s', (f ()).run s = (.ok a, s')) : (modify g >>= f).Atomic := by
  intro s y s' hrun
  obtain ⟨a, s₁, ha⟩ := h (g s)
  rw [run_bind, run_modify] at hrun
  simp [ha] at hrun

theorem Atomic.map {e : Edit σ α} (h : e.Atomic) (f : α → β) : (f <$> e).Atomic := by
  intro s y s' hrun
  rw [run_map] at hrun
  rcases he : e.run s with ⟨r | r, s₁⟩
  · rw [he] at hrun
    exact h s r s' (by rw [he, (Prod.mk.inj hrun).2])
  · simp [he] at hrun

/-! ### Edits of one item of a list -/

variable {τ : Type} {items : τ → List σ} {put : τ → List σ → τ} {missing : RuleError}
  {picks : σ → Bool} {e : Edit σ α}

/-- An edit of a record that edits the first item of some kind in a list of the record. -/
def within (items : τ → List σ) (put : τ → List σ → τ) (missing : RuleError)
    (picks : σ → Bool) (e : Edit σ α) : Edit τ α := fun t =>
  match onFirst picks e (items t) with
  | some (r, xs) => (r, put t xs)
  | none => (.error missing, t)

theorem run_within_of_firstAt {t : τ} {pre post : List σ} {x : σ}
    (h : FirstAt picks (items t) pre x post) :
    (within items put missing picks e).run t =
      ((e.run x).1, put t (pre ++ (e.run x).2 :: post)) := by
  rw [run, within, h.onFirst_eq e]

theorem run_within_of_forall {t : τ} (h : ∀ x ∈ items t, picks x = false) :
    (within items put missing picks e).run t = (.error missing, t) := by
  rw [run, within, onFirst_eq_none e h]

/-- **An edit of one item** succeeds if there is such an item and the edit succeeds on the
first of them; that one is replaced. -/
theorem run_within_eq_ok_iff {t t' : τ} {a : α} :
    (within items put missing picks e).run t = (.ok a, t') ↔
      ∃ pre x post x', FirstAt picks (items t) pre x post ∧ e.run x = (.ok a, x') ∧
        t' = put t (pre ++ x' :: post) := by
  constructor
  · intro h
    rcases exists_firstAt picks (items t) with ⟨pre, x, post, hat⟩ | hnone
    · rw [run_within_of_firstAt hat, Prod.mk.injEq] at h
      exact ⟨pre, x, post, (e.run x).2, hat, Prod.ext h.1 rfl, h.2.symm⟩
    · rw [run_within_of_forall hnone] at h
      simp at h
  · rintro ⟨pre, x, post, x', hat, he, rfl⟩
    rw [run_within_of_firstAt hat, he]

/-- An atomic edit of one item leaves the whole record alone if it fails. -/
theorem Atomic.within (h : e.Atomic) (hput : ∀ t, put t (items t) = t) :
    (within items put missing picks e).Atomic := by
  intro t x t' hrun
  rcases exists_firstAt picks (items t) with ⟨pre, y, post, hat⟩ | hnone
  · rw [run_within_of_firstAt hat, Prod.mk.injEq] at hrun
    obtain ⟨herr, rfl⟩ := hrun
    rw [h y x (e.run y).2 (by rw [← herr]), ← hat.eq, hput]
  · rw [run_within_of_forall hnone] at hrun
    exact (Prod.mk.inj hrun).2.symm

end Edit

/-! ### Edits of one version and of one entry -/

variable {α : Type} {id : String}

namespace Ruleset

theorem onVersion_eq_within (id : String) (e : Edit Version α) :
    onVersion id e = Edit.within versions (fun s vs => { s with versions := vs })
      (.notFound .version) (fun v => v.id == id) e := by
  funext s
  unfold onVersion Edit.within
  rcases Edit.onFirst (fun v : Version => v.id == id) e s.versions with _ | ⟨r, vs⟩ <;> rfl

theorem run_onVersion_eq_ok_iff {e : Edit Version α} {s s' : Ruleset} {a : α} :
    (onVersion id e).run s = (.ok a, s') ↔
      ∃ pre v post v', FirstAt (fun w : Version => w.id == id) s.versions pre v post ∧
        e.run v = (.ok a, v') ∧ s' = { s with versions := pre ++ v' :: post } := by
  rw [onVersion_eq_within]
  exact Edit.run_within_eq_ok_iff

theorem atomic_onVersion {e : Edit Version α} (h : e.Atomic) : (onVersion id e).Atomic := by
  rw [onVersion_eq_within]
  exact h.within fun _ => rfl

end Ruleset

namespace Version

theorem onEntry_eq_within (id : String) (e : Edit Entry α) :
    onEntry id e = Edit.within entries (fun v es => { v with entries := es })
      (.notFound .entry) (fun d => d.id == id) e := by
  funext v
  unfold onEntry Edit.within
  rcases Edit.onFirst (fun d : Entry => d.id == id) e v.entries with _ | ⟨r, es⟩ <;> rfl

theorem run_onEntry_eq_ok_iff {e : Edit Entry α} {v v' : Version} {a : α} :
    (onEntry id e).run v = (.ok a, v') ↔
      ∃ pre d post d', FirstAt (fun d : Entry => d.id == id) v.entries pre d post ∧
        e.run d = (.ok a, d') ∧ v' = { v with entries := pre ++ d' :: post } := by
  rw [onEntry_eq_within]
  exact Edit.run_within_eq_ok_iff

theorem atomic_onEntry {e : Edit Entry α} (h : e.Atomic) : (onEntry id e).Atomic := by
  rw [onEntry_eq_within]
  exact h.within fun _ => rfl

end Version

end Rulebook
