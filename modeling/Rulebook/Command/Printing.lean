import Rulebook.Command.Error

/-!
# Printing

A command reads, checks and prints, and may fail at any point. What has been printed by then stays
printed: nothing is taken back when a later part of the command fails.

* `Rulebook.Printing` – a part of a run that prints, a monad;
* `Rulebook.Printing.line`, `Rulebook.Printing.lift` – a line, and what may fail without printing;
* `Rulebook.Serializer` – whether reports can be serialized;
* `Rulebook.Printing.serialized` – a line that has to be serialized first.
-/

namespace Rulebook

/-- A part of a run: what comes of it, and what it has printed by then. -/
structure Printing (α : Type) where
  /-- What comes of it. -/
  result : Except CommandError α
  /-- What it has printed. -/
  printed : String

/-- Whether a report with a text can be serialized, or why not. Nothing else is asked of it. -/
abbrev Serializer := String → Except String Unit

/-- All reports can be serialized. -/
def Serializer.sure : Serializer := fun _ => .ok ()

namespace Printing

variable {α β : Type}

instance : Monad Printing where
  pure a := ⟨.ok a, ""⟩
  bind p f :=
    match p.result with
    | .ok a => ⟨(f a).result, p.printed ++ (f a).printed⟩
    | .error e => ⟨.error e, p.printed⟩

/-- Prints a line. -/
def line (text : String) : Printing Unit := ⟨.ok (), text ++ "\n"⟩

/-- Fails if a computation does, and prints nothing. -/
def lift (r : Except CommandError α) : Printing α := ⟨r, ""⟩

/-- Prints a line that has to be serialized first. -/
def serialized (s : Serializer) (text : String) : Printing Unit := do
  lift ((s text).mapError .report)
  line text

/-! ### What they do -/

theorem lift_ok_bind (a : α) (f : α → Printing β) : lift (.ok a) >>= f = f a := by
  change (⟨(f a).result, "" ++ (f a).printed⟩ : Printing β) = f a
  rw [String.empty_append]

theorem lift_error_bind (e : CommandError) (f : α → Printing β) :
    lift (.error e) >>= f = lift (.error e) := rfl

theorem line_bind (text : String) (f : Unit → Printing β) :
    line text >>= f = ⟨(f ()).result, text ++ "\n" ++ (f ()).printed⟩ := rfl

theorem serialized_sure (text : String) : serialized .sure text = line text :=
  lift_ok_bind () fun _ => line text

end Printing

end Rulebook
