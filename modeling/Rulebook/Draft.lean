import Rulebook.Rule.Check
import Rulebook.Rule.Decode
import Rulebook.Rule.Describe
import Rulebook.Rule.Encode
import Rulebook.Rule.Status

/-!
# Drafts of rule versions

An author submits a **draft** of a version of a rule: a tree, a decision, and a description
if the author wants to write one. What is wrong with it is told, or it becomes a **prepared**
version, whose rule is known to go with the catalog and whose description is settled.

* `Rulebook.Draft` – what is submitted;
* `Rulebook.PreparedVersion` – what becomes of it;
* `Rulebook.Draft.prepare` – the step from the one to the other.
-/

namespace Rulebook

/-! ### Records -/

/-- A version of a rule as it was submitted. -/
structure Draft where
  /-- The rule that it is a version of. -/
  ruleId : String
  /-- Its number among the versions of the rule. -/
  number : UInt32
  /-- The tree, not yet looked into. -/
  logic : Opaque
  /-- The decision, of which only the action is looked at. -/
  decision : Opaque
  /-- The author. -/
  createdBy : String
  /-- A note on what has changed. -/
  changeSummary : Option String
  /-- A description by the author. -/
  description : Option String
  /-- Whether the description by the author is wanted. -/
  manual : Bool
deriving Repr

/-- Where the description of a version comes from. -/
inductive DescriptionSource where
  /-- The author wrote it. -/
  | manual
  /-- It was made from the rule. -/
  | template
deriving DecidableEq, Repr

/-- The name of a source. -/
def DescriptionSource.name : DescriptionSource → String
  | .manual => "MANUAL"
  | .template => "TEMPLATE"

/-- A version of a rule that is ready to be stored. -/
structure PreparedVersion where
  /-- The rule that it is a version of. -/
  ruleId : String
  /-- Its number among the versions of the rule. -/
  number : UInt32
  /-- Its status, which is that of a draft. -/
  status : RuleStatus
  /-- The rule. -/
  logic : Rule
  /-- The decision as it was submitted. -/
  decision : Opaque
  /-- A note on what has changed. -/
  changeSummary : Option String
  /-- The author. -/
  createdBy : String
  /-- The description. -/
  description : String
  /-- Where the description comes from. -/
  source : DescriptionSource
deriving Repr

/-- The form of the record of a draft. -/
def Draft.form : Form Document Draft :=
  Draft.mk <$> .required "ruleId" Decode.string
    <*> .required "versionNumber" Decode.uint32
    <*> .required "logicAst" Decode.kept
    <*> .required "decision" Decode.kept
    <*> .required "createdBy" Decode.string
    <*> .optional "changeSummary" Decode.string
    <*> .optional "description" Decode.string
    <*> .defaulted "manualDescriptionOverride" Decode.bool false

/-- The draft that a document describes. -/
def Draft.decode : Document → Decoded Draft := form.decodeDocument "struct RuleDraft"

/-- The JSON form of a prepared version. -/
def PreparedVersion.toJson (v : PreparedVersion) : Json :=
  .object <|
    [("ruleId", .string v.ruleId), ("versionNumber", .integer v.number.toNat),
     ("status", .string v.status.name), ("logicAst", v.logic.toJson),
     ("decision", v.decision.json)] ++
    Json.optional "changeSummary" (v.changeSummary.map .string) ++
    [("createdBy", .string v.createdBy), ("description", .string v.description),
     ("descriptionSource", .string v.source.name)]

/-! ### Preparation -/

namespace Draft

/-- The action of the decision, if there is one and it is not empty. -/
def action? (d : Draft) : Option String :=
  match d.decision.json.member? "action" with
  | some (.string s) => if s.isEmpty then none else some s
  | _ => none

/-- The description by the author, if it is wanted and not empty. -/
def manual? (d : Draft) : Option String :=
  d.description.filter fun text => d.manual && !text.isEmpty

/-- The description of a version and where it comes from. -/
def settle (d : Draft) (rule : Rule) (action : String) : String × DescriptionSource :=
  match d.manual? with
  | some text => (text, .manual)
  | none => (rule.sentence ⟨action⟩, .template)

/-- **Prepares a draft**: its tree has to describe a rule that goes with the catalog, and its
decision has to have an action. -/
def prepare (catalog : Catalog) (d : Draft) : Except RuleError PreparedVersion := do
  let rule ← (Rule.decode (.ofJson d.logic.json)).mapError .malformed
  rule.check catalog
  -- The decision comes last: a faulty rule is reported although there is no action.
  let some action := d.action? | throw .missingAction
  let (description, source) := d.settle rule action
  return {
    ruleId := d.ruleId
    number := d.number
    status := .draft
    logic := rule
    decision := d.decision
    changeSummary := d.changeSummary
    createdBy := d.createdBy
    description
    source }

end Draft

end Rulebook
