import Rulebook.Number.Literal

/-!
# Meeting a threshold

A value **meets** a threshold if it is at least as large. The comparison is exact for
every mix of literals: an integer is never rounded to a binary number. Instead the
binary number is replaced by the integer next to it, on the side where the replacement
does not change the answer.

* `Rulebook.Literal.meets` – the comparison of literals;
* `Rulebook.Numeric` – the kinds of number that a comparison may be asked for, and
  `Rulebook.Numeric.meets?`, the comparison of two numbers spelled in one kind.
-/

namespace Rulebook

namespace Literal

/-- `2 ^ 63`, the first number above all integers of 64 bits. -/
def bound : Double := .ofInt (Nat.pow 2 63)

/-- `-2 ^ 63`, the least integer of 64 bits. -/
def lowerBound : Double := .ofInt (-Nat.pow 2 63)

/-- Whether an integer meets a binary threshold: beyond the integers of 64 bits the
side decides, and among them the integer has to meet the least integer that is at
least the threshold. -/
def integerMeetsReal (v : Int64) (t : Double) : Bool :=
  -- Above all integers of 64 bits nothing meets it, below them everything does.
  if t = .nan ∨ t.atLeast bound then false
  else if !t.atLeast lowerBound then true
  else
    match t.ceil? with
    | some c => decide (Int64.ofInt c ≤ v)
    | none => false

/-- Whether a binary number meets an integer threshold: beyond the integers of 64 bits
the side decides, and among them the greatest integer that is at most the number has to
meet the threshold. -/
def realMeetsInteger (v : Double) (t : Int64) : Bool :=
  if v = .nan ∨ !v.atLeast lowerBound then false
  else if v.atLeast bound then true
  else
    match v.floor? with
    | some c => decide (t ≤ Int64.ofInt c)
    | none => false

/-- **Whether a value meets a threshold.** Nothing meets `nan`, and `nan` meets
nothing. -/
def meets : Literal → Literal → Bool
  | .integer v, .integer t => decide (t ≤ v)
  | .real v, .real t => v.atLeast t
  | .integer v, .real t => integerMeetsReal v t
  | .real v, .integer t => realMeetsInteger v t

end Literal

/-! ### Numbers of one kind -/

/-- A kind of number. -/
inductive Numeric where
  /-- The integers of so many bits, with or without a sign. -/
  | integer (signed : Bool) (bits : Nat)
  /-- The numbers of 32 bits. -/
  | single
  /-- The numbers of 64 bits. -/
  | double
deriving DecidableEq, Repr

namespace Numeric

/-- Whether an integer is of the kind with so many bits. -/
def holds (signed : Bool) (bits : Nat) (i : Int) : Bool :=
  if signed then decide (-(Nat.pow 2 (bits - 1) : Int) ≤ i ∧ i < Nat.pow 2 (bits - 1))
  else decide (0 ≤ i ∧ i < Nat.pow 2 bits)

/-- The integer of a kind that a text spells. -/
def integer? (signed : Bool) (bits : Nat) (s : String) : Option Int :=
  (Literal.integer? s.toList).filter (holds signed bits)

/-- **Whether a value meets a threshold**, both spelled in one kind of number; none if
one of them does not spell a number of the kind. -/
def meets? (kind : Numeric) (value threshold : String) : Option Bool :=
  match kind with
  | .integer signed bits => do
    let v ← integer? signed bits value
    let t ← integer? signed bits threshold
    return decide (t ≤ v)
  | .single => do
    let v : Single ← Literal.real? value.toList
    let t ← Literal.real? threshold.toList
    return v.atLeast t
  | .double => do
    let v : Double ← Literal.real? value.toList
    let t ← Literal.real? threshold.toList
    return v.atLeast t

end Numeric

end Rulebook
