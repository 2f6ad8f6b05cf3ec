import Rulebook.Ruleset.Basic

/-!
# Histories of rulesets

* `Rulebook.Operation` – what can be done to a ruleset, as data;
* `Rulebook.Operation.perform` – doing it;
* `Rulebook.Ruleset.after` – the state that a list of operations leads to;
* `Rulebook.Ruleset.HasRoomFor` – whether the version numbers last for a list of operations;
* `Rulebook.Ruleset.Reachable` – the states that can be reached from a new ruleset.

A version number is a word of 32 bits, and what comes after the last one is no number: counting
past it is an overflow, and no state that lies behind one counts as reached.
-/

namespace Rulebook

/-- What can be done to a ruleset. -/
inductive Operation where
  /-- Starts a new version. -/
  | newVersion (createdBy : String)
  /-- Freezes a draft. -/
  | approve (id actor : String)
  /-- Activates an approved version. -/
  | activate (id actor : String)
  /-- Activates a version again that belongs to a ruleset. -/
  | rollback (rulesetId id actor : String)
  /-- Edits the version with an id. -/
  | edit (id : String) (e : VersionEdit)

/-- What an operation answers if it succeeds. -/
inductive Answer where
  /-- A version. -/
  | version (v : Version)
  /-- An entry. -/
  | entry (e : Entry)
  /-- Nothing. -/
  | done

namespace Operation

/-- **Does what is asked for.** -/
def perform : Operation → Edit Ruleset Answer
  | .newVersion createdBy => .version <$> Ruleset.newVersion createdBy
  | .approve id actor => .version <$> Ruleset.approve id actor
  | .activate id actor => .version <$> Ruleset.activate id actor
  | .rollback rulesetId id actor => .version <$> Ruleset.rollback rulesetId id actor
  | .edit id e => do
    match ← Ruleset.onVersion id e.perform with
    | some entry => return .entry entry
    | none => return .done

/-- Whether an operation starts a version. -/
def startsVersion : Operation → Bool
  | .newVersion _ => true
  | _ => false

end Operation

namespace Ruleset

/-- **The state that a list of operations leads to**, also if some of them fail. -/
def after (s : Ruleset) (ops : List Operation) : Ruleset :=
  ops.foldl (fun s op => (op.perform.run s).2) s

/-- Whether one more version can be numbered: no version has the last number. -/
def HasRoom (s : Ruleset) : Prop := ∀ v ∈ s.versions, v.number.toNat + 1 < UInt32.size

instance (s : Ruleset) : Decidable s.HasRoom := inferInstanceAs (Decidable (∀ v ∈ s.versions, _))

/-- **Whether the numbers last for a list of operations**: whenever one of them starts a
version, there is room for it. -/
def HasRoomFor : Ruleset → List Operation → Prop
  | _, [] => True
  | s, op :: ops => (op.startsVersion → s.HasRoom) ∧ HasRoomFor (op.perform.run s).2 ops

instance decidableHasRoomFor :
    (s : Ruleset) → (ops : List Operation) → Decidable (s.HasRoomFor ops)
  | _, [] => .isTrue trivial
  | s, op :: ops =>
    have := decidableHasRoomFor (op.perform.run s).2 ops
    inferInstanceAs (Decidable (_ ∧ _))

/-- The states that can be reached from a new ruleset while the numbers last. -/
def Reachable (s : Ruleset) : Prop :=
  ∃ input first ops, create input = .ok first ∧ first.HasRoomFor ops ∧ s = first.after ops

end Ruleset

end Rulebook
