import Rulebook.Catalog.Basic

/-!
# Checking rules against a catalog

* `Rulebook.Condition.check` – whether a condition goes with the field it names;
* `Rulebook.Rule.check` – whether all of a rule does. The first mistake is reported, each
  node coming before its children and the children in their order.
-/

namespace Rulebook

/-- Fails with an error unless a condition holds. -/
def ensure {ε : Type} (holds : Bool) (e : ε) : Except ε Unit := if holds then .ok () else .error e

/-- Whether the payload of a condition on a field goes with the operator: first its shape,
then the types of its values. -/
def Condition.checkPayload (c : Condition) (type : FieldType) : Except RuleError Unit :=
  match c.operator.payload with
  | .nothing => ensure c.value.isNone (.unexpectedValue c.operator)
  | .pair =>
    match c.value with
    | some (.list [low, high]) => ensure (low.fits type && high.fits type) (.rangeType type)
    | _ => .error (.rangeRequired c.operator)
  | .several =>
    match c.value with
    | some (.list (first :: rest)) =>
      ensure ((first :: rest).all fun s => s.fits type.valueType) (.listType c.fieldKey)
    | _ => .error (.listRequired c.operator)
  | .single =>
    match c.value with
    | some (.scalar s) => do
      -- The operators that a type allows leave nothing for the first condition to refuse.
      ensure (!c.operator.isText || type == .string || type == .list) (.textRequired c.operator)
      ensure (s.fits type.valueType) (.scalarType type)
    | _ => .error (.scalarRequired c.operator)

/-- **Whether a condition goes with its field**: the field is in the catalog, its type
allows the operator, and the payload is what the operator asks for. -/
def Condition.check (catalog : Catalog) (c : Condition) : Except RuleError Unit := do
  ensure (!c.fieldKey.isEmpty) .emptyFieldKey
  let field ← catalog.require c.fieldKey
  ensure (field.type.operators.contains c.operator) (.operatorNotAllowed c.operator field.type)
  c.checkPayload field.type

namespace Rule

mutual

/-- **Whether a rule goes with a catalog.** -/
def check (catalog : Catalog) : Rule → Except RuleError Unit
  | .group c children =>
    if children.length < 2 then .error (.tooFewChildren c children.length)
    else checkAll catalog children
  | .not child => check catalog child
  | .condition c => c.check catalog

/-- Whether several rules go with a catalog. -/
def checkAll (catalog : Catalog) : List Rule → Except RuleError Unit
  | [] => .ok ()
  | r :: rs => do
    check catalog r
    checkAll catalog rs

end

end Rule

end Rulebook
