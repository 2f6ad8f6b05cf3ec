import Rulebook.Error
import Rulebook.Json.Record
import Rulebook.Rule.Status
import Rulebook.Ruleset.Status

/-!
# Ruleset versions

A **version** of a ruleset is a list of **entries**, each of which puts a version of a rule
into it.

* `Rulebook.Entry`, `Rulebook.Version` – the records;
* `Rulebook.Version.start` – a version without entries;
* `Rulebook.Version.runOrder` – the entries in the order in which they are run.
-/

namespace Rulebook

/-! ### Entries -/

/-- A version of a rule in a version of a ruleset. -/
structure Entry where
  /-- The id of the entry. -/
  id : String
  /-- The rule. -/
  ruleId : String
  /-- The version of the rule. -/
  ruleVersionId : String
  /-- Whether it is run. -/
  enabled : Bool
  /-- Its place in the order of running, if the version is sequential. -/
  priority : Option Int64
  /-- The status of the version of the rule, if it is known. -/
  ruleStatus : Option RuleStatus
  /-- Whether the rule is archived. -/
  archived : Bool
deriving DecidableEq, Repr

namespace Entry

/-- The form of the record of an entry. -/
def form : Form Document Entry :=
  Entry.mk <$> .required "entryId" Decode.string
    <*> .required "ruleId" Decode.string
    <*> .required "ruleVersionId" Decode.string
    <*> .defaulted "enabled" Decode.bool true
    <*> .optional "orderPriority" Decode.int64
    <*> .optional "ruleVersionStatus" (Decode.name RuleStatus.table)
    <*> .defaulted "archived" Decode.bool false

/-- The entry that a document describes. -/
def decode : Document → Decoded Entry := form.decodeDocument "struct RulesetEntry"

/-- The JSON form of an entry. -/
def toJson (e : Entry) : Json :=
  .object <|
    [("entryId", .string e.id), ("ruleId", .string e.ruleId),
     ("ruleVersionId", .string e.ruleVersionId), ("enabled", .bool e.enabled)] ++
    Json.optional "orderPriority" (e.priority.map fun p => .integer p.toInt) ++
    Json.optional "ruleVersionStatus" (e.ruleStatus.map fun s => .string s.name) ++
    Json.optional "archived" (if e.archived then some (.bool true) else none)

end Entry

/-! ### Versions -/

/-- A version of a ruleset. -/
structure Version where
  /-- The id of the version. -/
  id : String
  /-- The ruleset that it is a version of. -/
  rulesetId : String
  /-- Its number; the first is one. -/
  number : UInt32
  /-- How far it has come. -/
  status : Status
  /-- How its entries are run. -/
  mode : Mode
  /-- Which decision prevails over which, if the version is parallel. -/
  precedence : Option Opaque
  /-- The author. -/
  createdBy : String
  /-- Who approved it. -/
  approvedBy : Option String
  /-- Who activated it, while it is active. -/
  activatedBy : Option String
  /-- Its entries. -/
  entries : List Entry
deriving Repr

namespace Version

/-- The form of the record of a version. -/
def form : Form Document Version :=
  Version.mk <$> .required "rulesetVersionId" Decode.string
    <*> .required "rulesetId" Decode.string
    <*> .required "versionNumber" Decode.uint32
    <*> .required "status" (Decode.name Status.table)
    <*> .required "executionMode" (Decode.name Mode.table)
    <*> .optional "decisionPrecedence" Decode.kept
    <*> .required "createdBy" Decode.string
    <*> .optional "approvedBy" Decode.string
    <*> .optional "activatedBy" Decode.string
    <*> .defaulted "entries" (Decode.list Entry.decode) []

/-- The version that a document describes. -/
def decode : Document → Decoded Version := form.decodeDocument "struct RulesetVersion"

/-- The JSON form of a version. The precedence is written also if there is none. -/
def toJson (v : Version) : Json :=
  .object <|
    [("rulesetVersionId", .string v.id), ("rulesetId", .string v.rulesetId),
     ("versionNumber", .integer v.number.toNat), ("status", .string v.status.name),
     ("executionMode", .string v.mode.name),
     ("decisionPrecedence", (v.precedence.map Opaque.json).getD .null),
     ("createdBy", .string v.createdBy)] ++
    Json.optional "approvedBy" (v.approvedBy.map .string) ++
    Json.optional "activatedBy" (v.activatedBy.map .string) ++
    [("entries", .array (v.entries.map Entry.toJson))]

/-- The id of the version of a ruleset with a number. -/
def idOf (rulesetId : String) (number : UInt32) : String :=
  rulesetId ++ ":v" ++ toString number.toNat

/-- The id of the entry of a version for a version of a rule. -/
def entryIdOf (versionId ruleVersionId : String) : String := versionId ++ ":" ++ ruleVersionId

/-- Whether there is a precedence; `null` is none. -/
def hasPrecedence (precedence : Option Opaque) : Bool := precedence.any fun o => !o.isNull

/-- A parallel version needs a precedence. -/
def requirePrecedence (mode : Mode) (precedence : Option Opaque) : Except RuleError Unit :=
  if mode = .parallel ∧ !hasPrecedence precedence then
    .error (.unacceptable .precedenceRequired)
  else .ok ()

/-- **A new version** without entries, a draft. -/
def start (rulesetId : String) (number : UInt32) (mode : Mode) (precedence : Option Opaque)
    (createdBy : String) : Except RuleError Version := do
  requirePrecedence mode precedence
  return {
    id := idOf rulesetId number
    rulesetId
    number
    status := .draft
    mode
    precedence
    createdBy
    approvedBy := none
    activatedBy := none
    entries := [] }

/-- Whether a version may still be edited. -/
def isDraft (v : Version) : Bool := v.status == .draft

/-! ### The order of running -/

/-- Whether the first of two places in an order may come before the second. No place at
all comes before every place. -/
def placeLe : Option Int64 → Option Int64 → Bool
  | none, _ => true
  | some _, none => false
  | some p, some q => decide (p ≤ q)

/-- **The entries in the order in which they are run**: in a sequential version by priority,
those with the same priority in the order in which they were added. -/
def runOrder (v : Version) : List Entry :=
  match v.mode with
  | .sequential => v.entries.mergeSort fun a b => placeLe a.priority b.priority
  | .parallel => v.entries

end Version

end Rulebook
