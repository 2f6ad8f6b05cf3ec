import Rulebook.Json.Decode
import Rulebook.Rule.Basic

/-!
# What can be wrong with rules, drafts and rulesets

* `Rulebook.RuleError` – the causes;
* `Rulebook.RuleError.message` – their wording;
* `Rulebook.RuleError.status` – the class of an error: something is not there, or clashes
  with what is there, or is not acceptable as it is.
-/

namespace Rulebook

/-- Something that does not exist. -/
inductive NotFound where
  /-- A ruleset has no version to start from. -/
  | latestVersion
  /-- No version of the ruleset has the id. -/
  | version
  /-- No entry of the version has the id. -/
  | entry
deriving DecidableEq, Repr

/-- The wording of what does not exist. -/
def NotFound.message : NotFound → String
  | .latestVersion => "ruleset not found or has no versions"
  | .version => "ruleset version not found"
  | .entry => "entry not found"

/-- A clash with the present state of a ruleset. -/
inductive Conflict where
  /-- The settings of a version that is no draft cannot be edited. -/
  | settingsFrozen
  /-- Nothing can be added to a version that is no draft. -/
  | entriesFrozen
  /-- The entries of a version that is no draft cannot be edited. -/
  | entryFrozen
  /-- The entries of a version that is no draft cannot be deleted. -/
  | deletionFrozen
  /-- Only a draft can be approved. -/
  | approvedAlready
  /-- Only an approved version can be activated. -/
  | notApproved
  /-- A rule version is in the version already. -/
  | duplicateRuleVersion
  /-- Another entry has the priority. -/
  | priorityTaken
  /-- More than one version is active. -/
  | severalActive
deriving DecidableEq, Repr

/-- The wording of a clash. -/
def Conflict.message : Conflict → String
  | .settingsFrozen => "only DRAFT ruleset versions can be edited"
  | .entriesFrozen => "entries can only be added to DRAFT ruleset versions"
  | .entryFrozen => "entry can only be edited in DRAFT ruleset versions"
  | .deletionFrozen => "entry can only be deleted in DRAFT ruleset versions"
  | .approvedAlready => "only DRAFT ruleset versions can be approved"
  | .notApproved => "only APPROVED versions can be activated"
  | .duplicateRuleVersion => "duplicate ruleVersionId in ruleset version"
  | .priorityTaken => "orderPriority must be unique within a SEQUENTIAL draft ruleset version"
  | .severalActive => "a ruleset can have only one ACTIVE version"

/-- Something that a ruleset must not be like. -/
inductive Unacceptable where
  /-- A parallel version needs a decision precedence. -/
  | precedenceRequired
  /-- A parallel version needs a decision precedence before anything is added to it. -/
  | precedenceUndefined
  /-- An archived rule cannot be in a version. -/
  | archivedRule
  /-- An entry of a sequential version needs a priority. -/
  | priorityRequired
  /-- An entry of a parallel version has no priority to change. -/
  | priorityUnused
  /-- A draft of a rule cannot be in a version that is no draft. -/
  | draftRuleVersion
  /-- A version belongs to another ruleset. -/
  | foreignVersion
deriving DecidableEq, Repr

/-- The wording of what a ruleset must not be like. -/
def Unacceptable.message : Unacceptable → String
  | .precedenceRequired => "decisionPrecedence is required when executionMode is PARALLEL"
  | .precedenceUndefined => "decisionPrecedence must be defined for PARALLEL execution mode"
  | .archivedRule => "cannot add an archived rule"
  | .priorityRequired => "orderPriority is required for SEQUENTIAL execution mode"
  | .priorityUnused => "orderPriority can only be changed for SEQUENTIAL mode"
  | .draftRuleVersion => "cannot add DRAFT rule_version to non-draft ruleset_version"
  | .foreignVersion => "rulesetVersionId does not belong to the specified ruleset"

/-- **What can be wrong** with a number, a rule, a draft or a ruleset. -/
inductive RuleError where
  /-- A text spells no number. -/
  | notANumber (text : String)
  /-- A document is no rule, or no ruleset version. -/
  | malformed (cause : DecodeError)
  /-- A node that combines its children has fewer than two. -/
  | tooFewChildren (c : Connective) (count : Nat)
  /-- A condition names no field. -/
  | emptyFieldKey
  /-- A field is not in the catalog. -/
  | unknownField (key : String)
  /-- The type of a field does not allow an operator. -/
  | operatorNotAllowed (op : Operator) (type : FieldType)
  /-- An operator without a payload has one. -/
  | unexpectedValue (op : Operator)
  /-- The payload of an operator is not the two ends of a range. -/
  | rangeRequired (op : Operator)
  /-- The ends of a range are of the wrong type. -/
  | rangeType (type : FieldType)
  /-- The payload of an operator is not a list with at least one value. -/
  | listRequired (op : Operator)
  /-- A value in a list is of the wrong type. -/
  | listType (key : String)
  /-- The payload of an operator is not a single value. -/
  | scalarRequired (op : Operator)
  /-- An operator that looks at text is used with a field that is none. -/
  | textRequired (op : Operator)
  /-- A single value is of the wrong type. -/
  | scalarType (type : FieldType)
  /-- A draft does not say what to decide. -/
  | missingAction
  /-- Something does not exist. -/
  | notFound (what : NotFound)
  /-- Something clashes with the present state. -/
  | conflict (what : Conflict)
  /-- A ruleset must not be like this. -/
  | unacceptable (what : Unacceptable)
deriving DecidableEq, Repr

namespace RuleError

/-- **The wording of an error.** -/
def message : RuleError → String
  | .notANumber text => "Not a number: '" ++ text ++ "'"
  | .malformed cause => "Malformed rule: " ++ cause.message?.getD "not JSON"
  | .tooFewChildren c count =>
    c.word ++ " node requires at least two children, got " ++ toString count
  | .emptyFieldKey => "Condition field key cannot be empty"
  | .unknownField key => "Unknown field key: " ++ key
  | .operatorNotAllowed op type =>
    "Operator " ++ op.name ++ " is not allowed for field type " ++ type.name
  | .unexpectedValue op => "Operator " ++ op.name ++ " does not allow a value payload"
  | .rangeRequired op => "Operator " ++ op.name ++ " requires a two-item range"
  | .rangeType type => "Range values are invalid for field type " ++ type.name
  | .listRequired op => "Operator " ++ op.name ++ " requires a non-empty list value"
  | .listType key => "List value type is invalid for field " ++ key
  | .scalarRequired op => "Operator " ++ op.name ++ " requires a scalar value"
  | .textRequired op => "Operator " ++ op.name ++ " requires STRING or LIST field type"
  | .scalarType type => "Value type is invalid for field type " ++ type.name
  | .missingAction => "decision.action is required"
  | .notFound what => what.message
  | .conflict what => what.message
  | .unacceptable what => what.message

/-- **The class of an error** as a number: 404 if something does not exist, 409 if something
clashes with the present state, and 400 otherwise. -/
def status : RuleError → Nat
  | .notFound _ => 404
  | .conflict _ => 409
  | _ => 400

end RuleError

end Rulebook
