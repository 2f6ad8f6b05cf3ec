import Rulebook.Catalog.FieldType
import Rulebook.Number.Layout

/-!
# Rules

A **rule** is a tree. Its leaves are conditions on fields, and its inner nodes say whether
all of their children have to hold, or any of them, or the only one must not.

* `Rulebook.Scalar`, `Rulebook.Operand` – what a condition compares its field with;
* `Rulebook.Condition` – a leaf;
* `Rulebook.Rule` – a tree.
-/

namespace Rulebook

/-! ### Values -/

/-- A single value. -/
inductive Scalar where
  /-- A truth value. -/
  | bool (b : Bool)
  /-- A number. -/
  | number (x : Double)
  /-- A text. -/
  | text (s : String)
deriving DecidableEq, Repr

namespace Scalar

/-- How a value is shown: numbers without an exponent, and texts as they are. -/
def display : Scalar → String
  | .bool b => if b then "true" else "false"
  | .number x => Layout.plain.text x
  | .text s => s

/-- **Whether a value is of a type**: a number for number fields, a truth value for boolean
ones, and a text for all others. -/
def fits (s : Scalar) : FieldType → Bool
  | .number =>
    match s with
    | .number _ => true
    | _ => false
  | .boolean =>
    match s with
    | .bool _ => true
    | _ => false
  | _ =>
    match s with
    | .text _ => true
    | _ => false

end Scalar

/-- What a condition compares its field with. -/
inductive Operand where
  /-- A single value. -/
  | scalar (s : Scalar)
  /-- Several values. A list of two may be a range. -/
  | list (items : List Scalar)
deriving DecidableEq, Repr

/-! ### Trees -/

/-- A leaf of a rule. -/
structure Condition where
  /-- What is told of the field. -/
  operator : Operator
  /-- The key of the field. -/
  fieldKey : String
  /-- What the field is compared with. -/
  value : Option Operand
deriving DecidableEq, Repr

/-- How many of its children a node needs. -/
inductive Connective where
  /-- All of them. -/
  | all
  /-- One of them at least. -/
  | any
deriving DecidableEq, Repr

/-- The word for a connective. -/
def Connective.word : Connective → String
  | .all => "AND"
  | .any => "OR"

/-- **A rule.** -/
inductive Rule where
  /-- A node that combines its children. -/
  | group (c : Connective) (children : List Rule)
  /-- A node that holds if its child does not. -/
  | not (child : Rule)
  /-- A condition on a field. -/
  | condition (c : Condition)
deriving Repr

/-! ### Kinds of nodes -/

/-- The kind of a node. -/
inductive NodeKind where
  /-- A node that combines its children. -/
  | group (c : Connective)
  /-- A negation. -/
  | not
  /-- A condition. -/
  | condition
deriving DecidableEq, Repr

namespace NodeKind

/-- The name of a kind of node. -/
def name : NodeKind → String
  | .group c => c.word
  | .not => "NOT"
  | .condition => "CONDITION"

/-- All kinds of nodes, in the order in which messages list them. -/
def all : List NodeKind := [.group .all, .group .any, .not, .condition]

/-- The kinds of nodes by their names. -/
def table : List (String × NodeKind) := all.map fun k => (k.name, k)

end NodeKind

/-- The kind of the node at the top of a rule. -/
def Rule.kind : Rule → NodeKind
  | .group c _ => .group c
  | .not _ => .not
  | .condition _ => .condition

end Rulebook
