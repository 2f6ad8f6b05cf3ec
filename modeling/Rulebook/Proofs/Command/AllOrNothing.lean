import Mathlib
import Rulebook.Command.Run
import Rulebook.Proofs.Json.Record

/-!
# Runs that print all or nothing

What has been printed stays printed, so a command that fails may leave a part of its report behind.
None does. All that can fail comes before the first line, with one exception: a version of a ruleset
is reported in two lines, and in between the second one is put together. That can fail only where it
has to be serialized, in JSON, and there the first line is not printed.

Which reports can be serialized is left open for this, and so is what TOML is read with. If all
reports can be serialized, whether a run succeeds is a matter of what it reads: neither the format
nor the colours come into it.

* `Rulebook.Printing.AllOrNothing` – a run prints something if it succeeds, and nothing if it fails;
* `Rulebook.Command.allOrNothing_print`, `Rulebook.CommandLine.allOrNothing_execute` – every command
  and every run does so;
* `Rulebook.Command.Accepts` – what a command asks of its arguments and its file;
* `Rulebook.Command.result_print_sure_eq_ok_iff` – it succeeds exactly if it finds that;
* `Rulebook.CommandLine.stdout_and_exit` – **what a run leaves**.
-/

namespace Rulebook

/-! ### Parts of runs -/

namespace Printing

variable {α β : Type} {text : String}

/-- **A run that prints all or nothing**: something if it succeeds, and nothing if it fails. -/
structure AllOrNothing (p : Printing Unit) : Prop where
  /-- It prints something if it succeeds. -/
  all : p.result = .ok () → p.printed ≠ ""
  /-- It prints nothing if it fails. -/
  nothing : ∀ e, p.result = .error e → p.printed = ""

theorem allOrNothing_line (text : String) : (line text).AllOrNothing := by
  refine ⟨fun _ => ?_, nofun⟩
  simp [line]

/-- **What may fail without printing** comes first. -/
theorem AllOrNothing.lift_bind {f : α → Printing Unit} (h : ∀ a, (f a).AllOrNothing)
    (r : Except CommandError α) : (lift r >>= f).AllOrNothing := by
  cases r with
  | ok a =>
    rw [lift_ok_bind]
    exact h a
  | error e =>
    rw [lift_error_bind]
    exact ⟨nofun, fun _ _ => rfl⟩

/-- **After a line** nothing may fail. -/
theorem allOrNothing_line_bind {f : Unit → Printing Unit} (h : (f ()).result = .ok ()) :
    (line text >>= f).AllOrNothing := by
  rw [line_bind]
  refine ⟨fun _ => ?_, fun e he => ?_⟩
  · simp
  · rw [h] at he
    cases he

theorem allOrNothing_serialized (s : Serializer) (text : String) :
    (serialized s text).AllOrNothing :=
  AllOrNothing.lift_bind (fun _ => allOrNothing_line text) _

theorem result_line (text : String) : (line text).result = .ok () := rfl

/-- **A run succeeds** if what comes first does and the rest does after it. -/
theorem result_lift_bind_eq_ok_iff {r : Except CommandError α} {f : α → Printing β} {b : β} :
    (lift r >>= f).result = .ok b ↔ ∃ a, r = .ok a ∧ (f a).result = .ok b := by
  cases r with
  | ok a => simp [lift_ok_bind]
  | error e => simp [lift]

end Printing

/-! ### Computations that succeed -/

section Computations

variable {ε α β : Type} {x : Except ε α}

theorem exists_bind_eq_ok_iff {f : α → Except ε β} :
    (∃ b, x >>= f = .ok b) ↔ ∃ a, x = .ok a ∧ ∃ b, f a = .ok b := by
  simp only [bind_eq_ok_iff]
  exact ⟨fun ⟨b, a, ha, hb⟩ => ⟨a, ha, b, hb⟩, fun ⟨a, ha, b, hb⟩ => ⟨b, a, ha, hb⟩⟩

theorem exists_pure_eq_ok (a : α) : ∃ b, (pure a : Except ε α) = .ok b := ⟨a, rfl⟩

end Computations

/-! ### Commands -/

namespace Command

open Printing

variable {report : Report} {catalog : Catalog} {file : FileText} {s : Serializer}

theorem allOrNothing_printReport (s : Serializer) (report : Report) (text : String) :
    (printReport s report text).AllOrNothing := by
  unfold printReport
  cases report.format with
  | table => exact allOrNothing_line text
  | json => exact allOrNothing_serialized s text

/-- A report that is no JSON does not fail. -/
theorem result_printReport_of_table (h : report.format = .table) (text : String) :
    (printReport s report text).result = .ok () := by
  rw [printReport, h]
  rfl

/-- **A version of a ruleset** is reported in two lines only where the second one cannot fail. -/
theorem allOrNothing_printVersion (s : Serializer) (report : Report) (version : Version) :
    (printVersion s report version).AllOrNothing := by
  unfold printVersion
  cases hformat : report.format with
  | table => exact allOrNothing_line_bind (result_printReport_of_table hformat _)
  | json => exact allOrNothing_printReport s report _

theorem allOrNothing_printRuleset (s : Serializer) (report : Report) (file : FileText) :
    (printRuleset s report file).AllOrNothing :=
  .lift_bind (fun _ => .lift_bind (fun version => .lift_bind (fun _ =>
    allOrNothing_printVersion s report version) _) _) _

/-- **Every command prints all or nothing**, whichever reports can be serialized. -/
theorem allOrNothing_print (s : Serializer) (report : Report) (catalog : Catalog) (file : FileText)
    (command : Command) : (command.print s report catalog file).AllOrNothing := by
  cases command with
  | check value threshold => exact .lift_bind (fun _ => allOrNothing_printReport s report _) _
  | validate name => exact .lift_bind (fun _ => allOrNothing_line _) _
  | describe name action => exact .lift_bind (fun _ => allOrNothing_printReport s report _) _
  | draft name => exact .lift_bind (fun _ => allOrNothing_serialized s _) _
  | fields => exact allOrNothing_printReport s report _
  | ruleset name => exact allOrNothing_printRuleset s report file

/-! ### Success -/

/-- **What a command asks of its arguments and its file**: numbers to compare; a rule that goes with
the catalog, and an action that is not blank; a draft that can be prepared; a version of a ruleset
that the check accepts. -/
def Accepts (catalog : Catalog) (file : FileText) : Command → Prop
  | .check value threshold =>
    (∃ v, Literal.parse? value = some v) ∧ ∃ t, Literal.parse? threshold = some t
  | .validate _ => ∃ text, file = .ok text ∧ ∃ rule, Rule.load catalog text = .ok rule
  | .describe _ action =>
    (Text.trim action).isEmpty = false ∧
      ∃ text, file = .ok text ∧ ∃ rule, Rule.load catalog text = .ok rule
  | .draft _ =>
    ∃ text, file = .ok text ∧ ∃ draft, Decode.ofText Draft.decode text = .ok draft ∧
      ∃ version, draft.prepare catalog = .ok version
  | .fields => True
  | .ruleset _ =>
    ∃ text, file = .ok text ∧ ∃ version, Decode.ofText Version.decode text = .ok version ∧
      version.check = .ok ()

theorem operand_eq_ok_iff {text : String} {l : Literal} :
    operand text = .ok l ↔ Literal.parse? text = some l := by
  unfold operand
  cases Literal.parse? text <;> simp

theorem exists_checkOutput_eq_ok_iff {value threshold : String} :
    (∃ out, checkOutput report value threshold = .ok out) ↔
      (∃ v, Literal.parse? value = some v) ∧ ∃ t, Literal.parse? threshold = some t := by
  simp only [checkOutput, exists_bind_eq_ok_iff, operand_eq_ok_iff, exists_pure_eq_ok, and_true,
    exists_and_right]

theorem exists_validateOutput_eq_ok_iff :
    (∃ out, validateOutput report catalog file = .ok out) ↔
      ∃ text, file = .ok text ∧ ∃ rule, Rule.load catalog text = .ok rule := by
  simp only [validateOutput, exists_bind_eq_ok_iff, mapError_eq_ok_iff, exists_pure_eq_ok, and_true]

theorem exists_describeOutput_eq_ok_iff {action : String} :
    (∃ out, describeOutput report catalog file action = .ok out) ↔
      (Text.trim action).isEmpty = false ∧
        ∃ text, file = .ok text ∧ ∃ rule, Rule.load catalog text = .ok rule := by
  cases haction : (Text.trim action).isEmpty with
  | true => simp [describeOutput, haction, bind, Except.bind]
  | false =>
    simp only [describeOutput, haction, Bool.false_eq_true, if_false, exists_bind_eq_ok_iff,
      mapError_eq_ok_iff, exists_pure_eq_ok, and_true, true_and]

theorem exists_draftOutput_eq_ok_iff :
    (∃ out, draftOutput report catalog file = .ok out) ↔
      ∃ text, file = .ok text ∧ ∃ draft, Decode.ofText Draft.decode text = .ok draft ∧
        ∃ version, draft.prepare catalog = .ok version := by
  simp only [draftOutput, exists_bind_eq_ok_iff, mapError_eq_ok_iff, exists_pure_eq_ok, and_true]

theorem result_printVersion_sure (report : Report) (version : Version) :
    (printVersion .sure report version).result = .ok () := by
  rw [printVersion, printReport_sure]
  split <;> rfl

theorem result_printRuleset_sure_eq_ok_iff :
    (printRuleset .sure report file).result = .ok () ↔
      ∃ text, file = .ok text ∧ ∃ version, Decode.ofText Version.decode text = .ok version ∧
        version.check = .ok () := by
  simp only [printRuleset, result_lift_bind_eq_ok_iff, mapError_eq_ok_iff,
    result_printVersion_sure, and_true]
  exact ⟨fun ⟨text, hfile, version, hread, _, hcheck⟩ => ⟨text, hfile, version, hread, hcheck⟩,
    fun ⟨text, hfile, version, hread, hcheck⟩ => ⟨text, hfile, version, hread, (), hcheck⟩⟩

/-- **Once the version is read** only the check and the report are left. -/
theorem printRuleset_ok {text : String} {version : Version}
    (hread : Decode.ofText Version.decode text = .ok version) :
    printRuleset s report (.ok text) =
      lift (version.check.mapError .rule) >>= fun _ => printVersion s report version := by
  simp only [printRuleset, Except.mapError, hread, lift_ok_bind]

/-- **A command succeeds** exactly if it finds what it asks for, however it is to report it. -/
theorem result_print_sure_eq_ok_iff {command : Command} :
    (command.print .sure report catalog file).result = .ok () ↔ command.Accepts catalog file := by
  cases command with
  | check value threshold =>
    simp only [print, printReport_sure, result_lift_bind_eq_ok_iff, result_line, and_true]
    exact exists_checkOutput_eq_ok_iff
  | validate name =>
    simp only [print, result_lift_bind_eq_ok_iff, result_line, and_true]
    exact exists_validateOutput_eq_ok_iff
  | describe name action =>
    simp only [print, printReport_sure, result_lift_bind_eq_ok_iff, result_line, and_true]
    exact exists_describeOutput_eq_ok_iff
  | draft name =>
    simp only [print, serialized_sure, result_lift_bind_eq_ok_iff, result_line, and_true]
    exact exists_draftOutput_eq_ok_iff
  | fields =>
    simp only [print, printReport_sure, result_line, Accepts]
  | ruleset name => exact result_printRuleset_sure_eq_ok_iff

end Command

/-! ### Runs -/

namespace Outcome

variable {p : Printing Unit}

/-- **A run that fails** leaves nothing but the code, if it prints all or nothing. -/
theorem of_error (h : p.AllOrNothing) {e : CommandError} (he : p.result = .error e) :
    (of p).stdout = "" ∧ (of p).exit = 1 := by
  rw [of, he]
  exact ⟨h.nothing e he, rfl⟩

theorem of_ok (h : p.AllOrNothing) (hok : p.result = .ok ()) :
    (of p).exit = 0 ∧ (of p).stdout ≠ "" := by
  rw [of, hok]
  exact ⟨rfl, h.all hok⟩

theorem exit_of_eq_zero_iff : (of p).exit = 0 ↔ p.result = .ok () := by
  unfold of
  split <;> simp [*]

end Outcome

namespace CommandLine

variable {line : CommandLine} {s : Serializer} {toml : TomlReader} {colours : Bool}
  {settingsFile file : FileText}

/-- **Every run prints all or nothing.** -/
theorem allOrNothing_execute (line : CommandLine) (s : Serializer) (toml : TomlReader)
    (colours : Bool) (settingsFile file : FileText) :
    (line.execute s toml colours settingsFile file).AllOrNothing := by
  unfold execute
  cases line.command with
  | none => exact Printing.allOrNothing_line _
  | some command => exact .lift_bind (fun _ => Command.allOrNothing_print s _ _ file command) _

/-- **A run succeeds** exactly if its settings can be settled and its command finds what it asks
for. -/
theorem result_execute_sure_eq_ok_iff :
    (line.execute .sure toml colours settingsFile file).result = .ok () ↔
      ∀ command, line.command = some command →
        ∃ settings, line.settle toml settingsFile = .ok settings ∧
          command.Accepts settings.catalog file := by
  unfold execute
  cases hcommand : line.command with
  | none => simp [Printing.result_line]
  | some command =>
    simp only [Printing.result_lift_bind_eq_ok_iff, Command.result_print_sure_eq_ok_iff,
      Option.some.injEq, forall_eq']

/-- The settings are those of the file that is asked for, if it can be read. -/
theorem settle_of_read {path text : String} {settings : Settings}
    (hpath : line.settings = some path) (hread : Settings.read toml text = .ok settings) :
    line.settle toml (.ok text) = .ok settings := by
  simp only [settle, hpath, hread, Except.mapError]

/-- **Once the settings are settled** only the command is left. -/
theorem execute_of_settle {command : Command} {settings : Settings}
    (hcommand : line.command = some command) (hsettle : line.settle toml settingsFile = .ok settings) :
    line.execute s toml colours settingsFile file =
      command.print s (line.report settings colours) settings.catalog file := by
  rw [execute, hcommand, hsettle]
  exact Printing.lift_ok_bind _ _

/-- **What a run leaves.** Whichever reports can be serialized and whatever is taken for TOML, a
run that fails prints nothing and ends with 1, and one that succeeds prints something and ends
with 0. If all reports can be serialized, it succeeds exactly if its settings can be settled and its
command, if there is one, finds what it asks of its arguments and its file: neither the format nor
the colours decide. -/
theorem stdout_and_exit (line : CommandLine) (toml : TomlReader) (colours : Bool)
    (settingsFile file : FileText) :
    (∀ s : Serializer,
      (∀ e, (line.execute s toml colours settingsFile file).result = .error e →
        (Outcome.of (line.execute s toml colours settingsFile file)).stdout = "" ∧
          (Outcome.of (line.execute s toml colours settingsFile file)).exit = 1) ∧
      ((line.execute s toml colours settingsFile file).result = .ok () →
        (Outcome.of (line.execute s toml colours settingsFile file)).exit = 0 ∧
          (Outcome.of (line.execute s toml colours settingsFile file)).stdout ≠ "")) ∧
    ((Outcome.of (line.execute .sure toml colours settingsFile file)).exit = 0 ↔
      ∀ command, line.command = some command →
        ∃ settings, line.settle toml settingsFile = .ok settings ∧
          command.Accepts settings.catalog file) := by
  refine ⟨fun s => ?_, ?_⟩
  · have h := line.allOrNothing_execute s toml colours settingsFile file
    exact ⟨fun e he => Outcome.of_error h he, fun hok => Outcome.of_ok h hok⟩
  · rw [Outcome.exit_of_eq_zero_iff]
    exact result_execute_sure_eq_ok_iff

/-- The value of a version with two entries, written as lists. The first entry has the priority
1. -/
def pairJson (priority : Int) : Json :=
  .array [.string "v", .string "rs", .integer 1, .string "DRAFT", .string "SEQUENTIAL", .null,
    .string "editor", .null, .null, .array
      [.array [.string "e", .string "limit", .string "limit:1", .bool true, .integer 1],
       .array [.string "f", .string "speed", .string "speed:1", .bool true, .integer priority]]]

/-- The version with the value. -/
def pair (priority : Int64) : Version where
  id := "v"
  rulesetId := "rs"
  number := 1
  status := .draft
  mode := .sequential
  precedence := none
  createdBy := "editor"
  approvedBy := none
  activatedBy := none
  entries :=
    [⟨"e", "limit", "limit:1", true, some 1, none, false⟩,
     ⟨"f", "speed", "speed:1", true, some priority, none, false⟩]

/-- A text of the version whose second entry has a priority of its own. -/
def ownText : String :=
  "[\"v\",\"rs\",1,\"DRAFT\",\"SEQUENTIAL\",null,\"editor\",null,null," ++
    "[[\"e\",\"limit\",\"limit:1\",true,1],[\"f\",\"speed\",\"speed:1\",true,2]]]"

/-- A text of the version whose second entry has the priority of the first. -/
def sharedText : String :=
  "[\"v\",\"rs\",1,\"DRAFT\",\"SEQUENTIAL\",null,\"editor\",null,null," ++
    "[[\"e\",\"limit\",\"limit:1\",true,1],[\"f\",\"speed\",\"speed:1\",true,1]]]"

/-- The command line that checks the version of a ruleset in the standard input, with a settings
file. -/
def checkInput (format : Option OutputFormat) : CommandLine :=
  ⟨format, false, some "rules.toml", false, some (.ruleset "-")⟩

/-- A settings file that asks for JSON. -/
def jsonWanted : String := "[settings]\nformat = 'json'\n"

/-- A run with this settings file, and with a text in the standard input. -/
def checking (format : Option OutputFormat) (s : Serializer) (text : String) : Printing Unit :=
  (checkInput format).execute s Toml.read? true (.ok jsonWanted) (.ok text)

/-- No report can be serialized. -/
def refusing : Serializer := fun _ => .error "full"

/-- A version is refused in a table, and another one is not; in JSON it cannot be reported if it
cannot be serialized. -/
theorem stdout_and_exit_pair :
    (Outcome.of (checking (some .table) .sure sharedText)).stdout = "" ∧
      (Outcome.of (checking (some .table) .sure sharedText)).exit = 1 ∧
      (Outcome.of (checking (some .table) refusing ownText)).stdout ≠ "" ∧
      (Outcome.of (checking none refusing ownText)).stdout = "" ∧
      (Outcome.of (checking none .sure ownText)).exit = 0 := by
  have hown : Decode.ofText Version.decode ownText = .ok (pair 2) := by
    have hread : Document.read ownText = ⟨.ofJson (pairJson 2), true⟩ := by cbv
    rw [Decode.ofText, hread]
    rfl
  have hshared : Decode.ofText Version.decode sharedText = .ok (pair 1) := by
    have hread : Document.read sharedText = ⟨.ofJson (pairJson 1), true⟩ := by cbv
    rw [Decode.ofText, hread]
    rfl
  have hsettled (format : Option OutputFormat) :
      (checkInput format).settle Toml.read? (.ok jsonWanted) = .ok ⟨⟨true, .json⟩, []⟩ := by
    have hread : Toml.read? jsonWanted =
        some (.object [("settings", .object [("format", .string "json")])]) := by cbv
    refine settle_of_read rfl ?_
    rw [Settings.read, hread]
    rfl
  -- Once all texts are read the rest of a run is computed.
  have hchecking {text : String} {v : Version} (hread : Decode.ofText Version.decode text = .ok v)
      (format : Option OutputFormat) (s : Serializer) :
      checking format s text = .lift (v.check.mapError .rule) >>= fun _ =>
        Command.printVersion s ⟨format.getD .json, true⟩ v := by
    rw [checking, execute_of_settle rfl (hsettled format)]
    exact Command.printRuleset_ok hread
  have hrefused : (checking (some .table) .sure sharedText).result =
      .error (.rule (.conflict .priorityTaken)) := by
    rw [hchecking hshared]
    rfl
  have htable : (checking (some .table) refusing ownText).result = .ok () := by
    rw [hchecking hown]
    rfl
  have hjson : (checking none refusing ownText).result = .error (.report "full") := by
    rw [hchecking hown]
    rfl
  have hruns (format : Option OutputFormat) (text : String) :=
    stdout_and_exit (checkInput format) Toml.read? true (.ok jsonWanted) (.ok text)
  refine ⟨(((hruns (some .table) sharedText).1 .sure).1 _ hrefused).1,
    (((hruns (some .table) sharedText).1 .sure).1 _ hrefused).2,
    (((hruns (some .table) ownText).1 refusing).2 htable).2,
    (((hruns none ownText).1 refusing).1 _ hjson).1, (hruns none ownText).2.2 ?_⟩
  rintro _ ⟨⟩
  exact ⟨⟨⟨true, .json⟩, []⟩, hsettled none, ownText, rfl, pair 2, hown, rfl⟩

end CommandLine

end Rulebook
