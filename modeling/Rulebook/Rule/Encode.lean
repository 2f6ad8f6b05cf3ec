import Rulebook.Json.Value
import Rulebook.Rule.Basic

/-!
# Encoding rules

The JSON form of a rule: a record for each node, which starts with its kind.
-/

namespace Rulebook

/-- The JSON form of a value. A number that is not finite has none. -/
def Scalar.toJson : Scalar → Json
  | .bool b => .bool b
  | .number x => if x.isFinite then .real x else .null
  | .text s => .string s

/-- The JSON form of what a condition compares with. -/
def Operand.toJson : Operand → Json
  | .scalar s => s.toJson
  | .list items => .array (items.map Scalar.toJson)

/-- The members of the record of a condition. -/
def Condition.members (c : Condition) : List (String × Json) :=
  [("operator", .string c.operator.name), ("fieldKey", .string c.fieldKey)] ++
    Json.optional "value" (c.value.map Operand.toJson)

namespace Rule

/-- The record of a node. -/
def nodeJson (kind : NodeKind) (members : List (String × Json)) : Json :=
  .object (("nodeType", .string kind.name) :: members)

mutual

/-- **The JSON form of a rule.** -/
def toJson : Rule → Json
  | .group c children => nodeJson (.group c) [("children", .array (toJsons children))]
  | .not child => nodeJson .not [("child", toJson child)]
  | .condition c => nodeJson .condition c.members

/-- The JSON forms of several rules. -/
def toJsons : List Rule → List Json
  | [] => []
  | r :: rs => toJson r :: toJsons rs

end

end Rule

end Rulebook
