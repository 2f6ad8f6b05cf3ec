import Rulebook.Command.Line
import Rulebook.Command.Printing
import Rulebook.Rule.Load
import Rulebook.Ruleset.Check

/-!
# Running commands

What a command prints, and how it ends, follows from the command line, from what the
settings file holds and from what the file that the command reads holds.

* `Rulebook.CommandLine.settle` – the settings that hold;
* `Rulebook.Command.print` – a command, with all that it prints;
* `Rulebook.CommandLine.execute` – a run;
* `Rulebook.CommandLine.run` – **the outcome**.
-/

namespace Rulebook

/-! ### Settings -/

/-- What a file holds, if it is text. -/
abbrev FileText := Except FileError String

/-- **The settings that hold.** A file that is asked for has to be there and to be right;
the file at the usual place counts only if it is. -/
def CommandLine.settle (line : CommandLine) (toml : TomlReader) (file : FileText) :
    Except CommandError Settings :=
  match line.settings, file with
  | some path, .error e => .error (.settingsFile path e)
  | some _, .ok text => (Settings.read toml text).mapError .settings
  | none, .error _ => .ok .default
  | none, .ok text =>
    match Settings.read toml text with
    | .ok s => .ok s
    | .error _ => .ok .default

/-! ### Commands -/

/-- A literal in an argument. -/
def operand (text : String) : Except CommandError Literal :=
  match Literal.parse? text with
  | some l => .ok l
  | none => .error (.operand (.notANumber text))

namespace Command

/-- Whether a value meets a threshold. -/
def checkOutput (report : Report) (value threshold : String) : Except CommandError String := do
  let value ← operand value
  let threshold ← operand threshold
  return report.check value threshold (value.meets threshold)

/-- That a rule goes with the catalog. -/
def validateOutput (report : Report) (catalog : Catalog) (file : FileText) :
    Except CommandError String := do
  let text ← file.mapError .file
  let rule ← (Rule.load catalog text).mapError .rule
  return report.success ("Rule is valid (" ++ rule.kind.name ++ " root)")

/-- The description of a rule. -/
def describeOutput (report : Report) (catalog : Catalog) (file : FileText) (action : String) :
    Except CommandError String := do
  if (Text.trim action).isEmpty then throw .blankAction
  let text ← file.mapError .file
  let rule ← (Rule.load catalog text).mapError .rule
  return report.description (rule.sentence ⟨action⟩)

/-- What becomes of a draft. -/
def draftOutput (report : Report) (catalog : Catalog) (file : FileText) :
    Except CommandError String := do
  let text ← file.mapError .file
  let draft ← (Decode.ofText Draft.decode text).mapError .draft
  let version ← (draft.prepare catalog).mapError .rule
  return report.prepared version

/-- Prints a report. Only JSON has to be serialized. -/
def printReport (s : Serializer) (report : Report) (text : String) : Printing Unit :=
  match report.format with
  | .json => .serialized s text
  | .table => .line text

/-- If all reports can be serialized, a report is a line. -/
theorem printReport_sure (report : Report) (text : String) :
    printReport .sure report text = .line text := by
  unfold printReport
  cases report.format with
  | table => rfl
  | json => exact Printing.serialized_sure text

/-- Prints a version of a ruleset that is as it should be. That it is so is told before, in words
only, and not in front of JSON. -/
def printVersion (s : Serializer) (report : Report) (version : Version) : Printing Unit := do
  if report.format != .json then
    let entries := toString version.entries.length
    .line (report.success ("Ruleset version is valid (" ++ entries ++ " entries)"))
  printReport s report (report.version version)

/-- Whether a version of a ruleset is as it should be, and its entries. -/
def printRuleset (s : Serializer) (report : Report) (file : FileText) : Printing Unit := do
  let text ← .lift (file.mapError .file)
  let version ← .lift <|
    (Decode.ofText Version.decode text).mapError fun cause => .rule (.malformed cause)
  .lift (version.check.mapError .rule)
  printVersion s report version

/-- **What a command does.** -/
def print (s : Serializer) (report : Report) (catalog : Catalog) (file : FileText) :
    Command → Printing Unit
  | .check value threshold => do
    printReport s report (← .lift (checkOutput report value threshold))
  | .validate _ => do .line (← .lift (validateOutput report catalog file))
  | .describe _ action => do
    printReport s report (← .lift (describeOutput report catalog file action))
  -- The names in the table of a prepared version are serialized, too.
  | .draft _ => do .serialized s (← .lift (draftOutput report catalog file))
  | .fields => printReport s report (report.fields catalog.fields)
  | .ruleset _ => printRuleset s report file

/-- The check that is shown without a command. -/
def sample : String :=
  let value := Literal.integer 10
  let threshold := Literal.integer 7
  Report.plain.check value threshold (value.meets threshold)

end Command

/-! ### Outcomes -/

/-- What a run of the program leaves. -/
structure Outcome where
  /-- What is printed. -/
  stdout : String
  /-- What is complained of. -/
  stderr : String
  /-- The exit code. -/
  exit : Nat
deriving DecidableEq, Repr

namespace Outcome

/-- What a run leaves that has come to its end. -/
def of (p : Printing Unit) : Outcome :=
  match p.result with
  | .ok () => ⟨p.printed, "", 0⟩
  | .error e => ⟨p.printed, "Error: " ++ e.message ++ "\n", 1⟩

/-- A run whose arguments were not well formed. -/
def usage : Outcome := ⟨"", "error: the arguments are not well formed; try '--help'\n", 2⟩

end Outcome

namespace CommandLine

/-- How reports are to be written. The command line counts more than the settings, and
colours need a reader who can see them. -/
def report (line : CommandLine) (settings : Settings) (colours : Bool) : Report :=
  { format := line.format.getD settings.preferences.format
    coloured := !line.noColour && settings.preferences.coloured && colours }

/-- **A run**, with some serializer and some reader of TOML. Without a command nothing is read. -/
def execute (line : CommandLine) (s : Serializer) (toml : TomlReader) (colours : Bool)
    (settingsFile file : FileText) : Printing Unit :=
  match line.command with
  | none => .line Command.sample
  | some command => do
    let settings ← .lift (line.settle toml settingsFile)
    command.print s (line.report settings colours) settings.catalog file

/-- **The outcome of a run** of the program. Whatever there is to report can be serialized. -/
def run (line : CommandLine) (colours : Bool) (settingsFile file : FileText) : Outcome :=
  .of (line.execute .sure Toml.read? colours settingsFile file)

end CommandLine

/-! ### The program -/

namespace Request

/-- The name of the program and its version. -/
def versionText : String := "rule-manager 0.1.0"

/-- How the program is used. -/
def helpText : String :=
  "Usage: rule-manager [OPTIONS] [COMMAND]\n\n" ++
  "Commands:\n" ++
  "  check VALUE THRESHOLD      Check whether a value meets a threshold\n" ++
  "  validate FILE              Validate a rule tree against the field catalog\n" ++
  "  describe FILE [-a ACTION]  Print the template description of a rule tree\n" ++
  "  draft FILE                 Validate a draft rule version and settle its description\n" ++
  "  fields                     List the field catalog\n" ++
  "  ruleset FILE               Validate a ruleset version and list its entries in run order\n\n" ++
  "Options:\n" ++
  "  -f, --format FORMAT  Output format: table or json\n" ++
  "      --no-color       Disable colored output\n" ++
  "  -c, --config FILE    Configuration file path\n" ++
  "  -v, --verbose        Verbose logging on stderr\n" ++
  "  -h, --help           Print help\n" ++
  "  -V, --version        Print version"

end Request

/-- Whether there are colours in what is printed to something other than a terminal: an
environment variable has to ask for them. -/
def coloursForced (wish : Option String) : Bool := wish.any (· != "0")

end Rulebook
