import Rulebook.Catalog.Basic
import Rulebook.Draft
import Rulebook.Number.Threshold
import Rulebook.Report.Paint
import Rulebook.Report.Table
import Rulebook.Ruleset.Version

/-!
# Reports

What is shown of checks, catalogs, drafts and rulesets, either as text and tables or as
JSON.

* `Rulebook.Report` – how reports are to be written;
* `Rulebook.Report.check`, `Rulebook.Report.fields`, `Rulebook.Report.prepared`,
  `Rulebook.Report.version`, `Rulebook.Report.description`, `Rulebook.Report.success` – the
  reports.
-/

namespace Rulebook

/-- What reports are written as. -/
inductive OutputFormat where
  /-- Text and tables. -/
  | table
  /-- JSON. -/
  | json
deriving DecidableEq, Repr

/-- The formats by their names. -/
def OutputFormat.names : List (String × OutputFormat) := [("table", .table), ("json", .json)]

/-- How reports are to be written. -/
structure Report where
  /-- What they are written as. -/
  format : OutputFormat
  /-- Whether some of the text is coloured. -/
  coloured : Bool
deriving DecidableEq, Repr

namespace Report

/-- Text without colours. -/
def plain : Report := ⟨.table, false⟩

/-- A text in a colour if there are colours. -/
def paint (r : Report) (c : Colour) (text : String) : String :=
  if r.coloured then c.paint text else text

/-! ### Checks -/

/-- The word for the outcome of a check. -/
def verdict (result : Bool) : String := if result then "True" else "False"

/-- The JSON form of a literal. A binary number that is not finite has none. -/
def literalJson : Literal → Json
  | .integer i => .integer i.toInt
  | .real x => if x.isFinite then .real x else .null

/-- **The outcome of a check.** -/
def check (r : Report) (value threshold : Literal) (result : Bool) : String :=
  match r.format with
  | .table =>
    "Rule check: " ++ value.text ++ " >= " ++ threshold.text ++ " -> " ++ verdict result
  | .json =>
    Json.pretty <|
      .object
        [("result", .bool result), ("threshold", literalJson threshold),
         ("value", literalJson value)]

/-! ### Catalogs -/

/-- The row of a field. -/
def fieldRow (f : Field) : List String :=
  [f.key, f.label, f.type.name, ", ".intercalate (f.type.operators.map Operator.name)]

/-- **The fields of a catalog.** -/
def fields (r : Report) (fs : List Field) : String :=
  match r.format with
  | .json => Json.pretty (.array (fs.map Field.toJson))
  | .table =>
    if fs.isEmpty then r.paint .yellow "No fields defined."
    else (Table.mk ["Field", "Label", "Type", "Operators"] (fs.map fieldRow)).render

/-! ### Drafts -/

/-- **A prepared version.** -/
def prepared (r : Report) (v : PreparedVersion) : String :=
  match r.format with
  | .json => v.toJson.pretty
  | .table =>
    (Table.mk ["Rule", "Version", "Status", "Source", "Description"]
      [[v.ruleId, toString v.number.toNat, v.status.name, v.source.name, v.description]]).render

/-! ### Rulesets -/

/-- The row of an entry. -/
def entryRow (e : Entry) : List String :=
  [(e.priority.map fun p => toString p.toInt).getD "-", e.ruleId, e.ruleVersionId,
   if e.enabled then "true" else "false"]

/-- **A version of a ruleset**: its title, and its entries in the order in which they are
run. -/
def version (r : Report) (v : Version) : String :=
  match r.format with
  | .json => v.toJson.pretty
  | .table =>
    v.rulesetId ++ " v" ++ toString v.number.toNat ++ " (" ++ v.status.name ++ ", " ++
      v.mode.name ++ ")\n" ++
      (Table.mk ["Priority", "Rule", "Rule Version", "Enabled"]
        (v.runOrder.map entryRow)).render

/-! ### Sentences -/

/-- **A description.** -/
def description (r : Report) (text : String) : String :=
  match r.format with
  | .json => Json.pretty (.object [("description", .string text)])
  | .table => text

/-- **What has succeeded**, which is told in words whatever the format is. -/
def success (r : Report) (text : String) : String := r.paint .green ("✓ " ++ text)

end Report

end Rulebook
