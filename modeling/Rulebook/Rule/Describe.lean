import Rulebook.Rule.Basic
import Rulebook.Rule.Decision
import Rulebook.Text.Uppercase

/-!
# Describing rules

A rule and what is decided when it holds are described by one sentence.

* `Rulebook.Condition.describe` – a condition: the key of the field, a phrase for the
  operator, and the values;
* `Rulebook.Rule.describe` – a rule: its conditions joined by words. A negated node is put in
  parentheses unless it is a condition;
* `Rulebook.Rule.sentence` – the sentence.
-/

namespace Rulebook

/-! ### Values -/

/-- Whether a text can stand without quotation marks: it has letters, digits, underscores,
points and hyphens only, and at least one of them. -/
def isBare (s : String) : Bool :=
  !s.isEmpty && s.toList.all fun c => c.isAlphanum || c == '_' || c == '.' || c == '-'

/-- How a value is written in a sentence. -/
def Scalar.describe : Scalar → String
  | .text s => if isBare s then s else "\"" ++ s ++ "\""
  | s => s.display

/-- The values of a payload. -/
def Operand.items : Operand → List Scalar
  | .scalar s => [s]
  | .list items => items

/-! ### Conditions -/

/-- The phrase for an operator. -/
def Operator.phrase : Operator → String
  | .eq => "="
  | .neq => "!="
  | .gt => ">"
  | .gte => ">="
  | .lt => "<"
  | .lte => "<="
  | .oneOf => "IN"
  | .notOneOf => "NOT IN"
  | .between => "BETWEEN"
  | .notBetween => "NOT BETWEEN"
  | .isNull => "IS NULL"
  | .isNotNull => "IS NOT NULL"
  | .isEmpty => "IS EMPTY"
  | .contains => "CONTAINS"
  | .notContains => "NOT CONTAINS"
  | .startsWith => "STARTS WITH"
  | .endsWith => "ENDS WITH"
  | .matchesRegex => "MATCHES REGEX"
  | .memberOf => "MEMBER OF"
  | .notMemberOf => "NOT MEMBER OF"

/-- How the payload of a condition is written. What is missing is written as nothing, and
what does not go with the operator is left out. -/
def Condition.describePayload (c : Condition) : String :=
  let items := (c.value.map Operand.items).getD []
  match c.operator.payload with
  | .nothing => ""
  | .pair => " " ++ nth items 0 ++ " AND " ++ nth items 1
  | .several => " \x7b" ++ ",".intercalate (items.map Scalar.describe) ++ "\x7d"
  | .single =>
    match c.value with
    | some (.scalar s) => " " ++ s.describe
    | _ => " "
where
  /-- An item of a list, if it has so many. -/
  nth (items : List Scalar) (n : Nat) : String := (items[n]?.map Scalar.describe).getD ""

/-- **A condition in words.** -/
def Condition.describe (c : Condition) : String :=
  c.fieldKey ++ " " ++ c.operator.phrase ++ c.describePayload

/-! ### Rules -/

namespace Rule

mutual

/-- **A rule in words.** -/
def describe : Rule → String
  | .group c children => (" " ++ c.word ++ " ").intercalate (describeAll children)
  | .not (.condition c) => "NOT " ++ c.describe
  | .not child => "NOT (" ++ describe child ++ ")"
  | .condition c => c.describe

/-- Several rules in words. -/
def describeAll : List Rule → List String
  | [] => []
  | r :: rs => describe r :: describeAll rs

end

/-- **The sentence for a rule** and what is decided when it holds. -/
def sentence (r : Rule) (d : Decision) : String := Text.upper d.action ++ " if " ++ r.describe

end Rule

end Rulebook
