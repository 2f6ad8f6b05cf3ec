import Rulebook.Error

/-!
# Edits

An **edit** of a state gives a result or fails with an error, and in either case leaves a
state. An edit that fails after it has changed something leaves the change behind; that
none of the edits in this library does so is a property of how they are put together.

* `Rulebook.Edit` – edits, a monad;
* `Rulebook.Edit.onFirst` – an edit of a list that edits the first item of some kind.
-/

namespace Rulebook

/-- An edit of a state: a result or an error, and the state it leaves. -/
def Edit (σ α : Type) : Type := σ → Except RuleError α × σ

namespace Edit

variable {σ α β : Type}

/-- What an edit does to a state. -/
def run (e : Edit σ α) (s : σ) : Except RuleError α × σ := e s

instance : Monad (Edit σ) where
  pure a := fun s => (.ok a, s)
  bind e f := fun s =>
    match e s with
    | (.ok a, s') => f a s'
    | (.error x, s') => (.error x, s')

/-- The state. -/
def state : Edit σ σ := fun s => (.ok s, s)

/-- Changes the state. -/
def modify (f : σ → σ) : Edit σ Unit := fun s => (.ok (), f s)

/-- Fails. -/
def fail (x : RuleError) : Edit σ α := fun s => (.error x, s)

/-- Fails if a computation does. -/
def lift (r : Except RuleError α) : Edit σ α := fun s => (r, s)

/-- Fails unless a condition holds. -/
def require (holds : Bool) (x : RuleError) : Edit σ Unit := if holds then pure () else fail x

/-! ### What they do -/

@[simp] theorem run_pure (a : α) (s : σ) : (pure a : Edit σ α).run s = (.ok a, s) := rfl

theorem run_bind (e : Edit σ α) (f : α → Edit σ β) (s : σ) :
    (e >>= f).run s =
      match e.run s with
      | (.ok a, s') => (f a).run s'
      | (.error x, s') => (.error x, s') := rfl

theorem run_map (f : α → β) (e : Edit σ α) (s : σ) :
    (f <$> e).run s =
      match e.run s with
      | (.ok a, s') => (.ok (f a), s')
      | (.error x, s') => (.error x, s') := rfl

@[simp] theorem run_state (s : σ) : (state : Edit σ σ).run s = (.ok s, s) := rfl

@[simp] theorem run_modify (f : σ → σ) (s : σ) : (modify f).run s = (.ok (), f s) := rfl

@[simp] theorem run_fail (x : RuleError) (s : σ) : (fail x : Edit σ α).run s = (.error x, s) := rfl

@[simp] theorem run_lift (r : Except RuleError α) (s : σ) :
    (lift r : Edit σ α).run s = (r, s) := rfl

/-! ### Items of lists -/

/-- Edits the first item of a list that a test picks; none if there is no such item. -/
def onFirst (picks : σ → Bool) (e : Edit σ α) : List σ → Option (Except RuleError α × List σ)
  | [] => none
  | x :: xs =>
    if picks x then some ((e.run x).1, (e.run x).2 :: xs)
    else (onFirst picks e xs).map fun (r, xs') => (r, x :: xs')

end Edit

end Rulebook
