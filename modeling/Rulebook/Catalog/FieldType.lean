import Rulebook.Rule.Operator

/-!
# Types of fields

* `Rulebook.FieldType` – the types;
* `Rulebook.FieldType.operators` – the operators that a condition on a field of the type may
  use;
* `Rulebook.FieldType.valueType` – the type of the values that such a condition compares
  with.
-/

namespace Rulebook

/-- The type of a field. -/
inductive FieldType where
  /-- A number. -/
  | number
  /-- Free text. -/
  | string
  /-- A truth value. -/
  | boolean
  /-- A point in time, compared as text. -/
  | datetime
  /-- One of several codes. -/
  | enum
  /-- Several texts. -/
  | list
deriving DecidableEq, Repr

namespace FieldType

/-- The name a type is written with. -/
def name : FieldType → String
  | .number => "NUMBER"
  | .string => "STRING"
  | .boolean => "BOOLEAN"
  | .datetime => "DATETIME"
  | .enum => "ENUM"
  | .list => "LIST"

/-- All types, in the order in which messages list them. -/
def all : List FieldType := [.number, .string, .boolean, .datetime, .enum, .list]

/-- The types by their names. -/
def table : List (String × FieldType) := all.map fun t => (t.name, t)

/-- **The operators** that a condition on a field of the type may use. -/
def operators : FieldType → List Operator
  | .number =>
    [.eq, .neq, .gt, .gte, .lt, .lte, .oneOf, .notOneOf, .between, .notBetween, .isNull,
     .isNotNull]
  | .datetime =>
    [.eq, .neq, .gt, .gte, .lt, .lte, .between, .notBetween, .isNull, .isNotNull]
  | .string =>
    [.eq, .neq, .oneOf, .notOneOf, .isNull, .isNotNull, .isEmpty, .contains, .notContains,
     .startsWith, .endsWith, .matchesRegex]
  | .boolean => [.eq, .neq, .isNull, .isNotNull]
  | .enum => [.eq, .neq, .oneOf, .notOneOf, .isNull, .isNotNull]
  | .list => [.isEmpty, .contains, .notContains, .memberOf, .notMemberOf, .isNull, .isNotNull]

/-- **The type of the values** that a condition on a field of the type compares with. The
items of a list are texts. -/
def valueType : FieldType → FieldType
  | .list => .string
  | t => t

end FieldType

end Rulebook
