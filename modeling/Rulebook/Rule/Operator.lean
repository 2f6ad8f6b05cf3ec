/-!
# Operators

A condition compares a field by an **operator**. What it is compared with is the payload
of the condition, and the operator says which shape the payload has.

* `Rulebook.Operator.table` – the operators and their names;
* `Rulebook.Operator.payload` – the shape of the payload;
* `Rulebook.Operator.isText` – the operators that look at text only.
-/

namespace Rulebook

/-- What a condition tells of its field. -/
inductive Operator where
  /-- The field has the value. -/
  | eq
  /-- The field does not have the value. -/
  | neq
  /-- The field is greater than the value. -/
  | gt
  /-- The field is at least the value. -/
  | gte
  /-- The field is less than the value. -/
  | lt
  /-- The field is at most the value. -/
  | lte
  /-- The field has one of the values. -/
  | oneOf
  /-- The field has none of the values. -/
  | notOneOf
  /-- The field lies in the range, its ends included. -/
  | between
  /-- The field lies outside the range. -/
  | notBetween
  /-- The field has no value. -/
  | isNull
  /-- The field has a value. -/
  | isNotNull
  /-- The field is empty. -/
  | isEmpty
  /-- The field contains the value. -/
  | contains
  /-- The field does not contain the value. -/
  | notContains
  /-- The field starts with the value. -/
  | startsWith
  /-- The field ends with the value. -/
  | endsWith
  /-- The field matches the pattern. -/
  | matchesRegex
  /-- The field, a list, shares an item with the values. -/
  | memberOf
  /-- The field, a list, shares no item with the values. -/
  | notMemberOf
deriving DecidableEq, Repr

/-- The shape of the payload of a condition. -/
inductive PayloadShape where
  /-- No payload. -/
  | nothing
  /-- One value. -/
  | single
  /-- The two ends of a range. -/
  | pair
  /-- A list with at least one value. -/
  | several
deriving DecidableEq, Repr

namespace Operator

/-- The name an operator is written with. -/
def name : Operator → String
  | .eq => "EQ"
  | .neq => "NEQ"
  | .gt => "GT"
  | .gte => "GTE"
  | .lt => "LT"
  | .lte => "LTE"
  | .oneOf => "IN"
  | .notOneOf => "NOT_IN"
  | .between => "BETWEEN"
  | .notBetween => "NOT_BETWEEN"
  | .isNull => "IS_NULL"
  | .isNotNull => "IS_NOT_NULL"
  | .isEmpty => "IS_EMPTY"
  | .contains => "CONTAINS"
  | .notContains => "NOT_CONTAINS"
  | .startsWith => "STARTS_WITH"
  | .endsWith => "ENDS_WITH"
  | .matchesRegex => "MATCHES_REGEX"
  | .memberOf => "MEMBER_OF"
  | .notMemberOf => "NOT_MEMBER_OF"

/-- All operators, in the order in which messages list them. -/
def all : List Operator :=
  [.eq, .neq, .gt, .gte, .lt, .lte, .oneOf, .notOneOf, .between, .notBetween, .isNull, .isNotNull,
   .isEmpty, .contains, .notContains, .startsWith, .endsWith, .matchesRegex, .memberOf,
   .notMemberOf]

/-- The operators by their names. -/
def table : List (String × Operator) := all.map fun op => (op.name, op)

/-- **The shape of the payload** an operator goes with. -/
def payload : Operator → PayloadShape
  | .isNull | .isNotNull | .isEmpty => .nothing
  | .between | .notBetween => .pair
  | .oneOf | .notOneOf | .memberOf | .notMemberOf => .several
  | _ => .single

/-- Whether an operator looks at text only. -/
def isText : Operator → Bool
  | .contains | .notContains | .startsWith | .endsWith | .matchesRegex => true
  | _ => false

end Operator

end Rulebook
