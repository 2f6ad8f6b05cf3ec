import Rulebook.Report.Basic

/-!
# The command line

* `Rulebook.Command` – what can be asked for;
* `Rulebook.CommandLine` – a command and the options it is given with;
* `Rulebook.CommandLine.read?` – **what the arguments ask for**; none if they are not well
  formed.

Options may stand in front of the name of a command and behind it, but each only once in
either place; behind it they count more. An option takes its value from the rest of its own
argument or from the next one. What follows `--` is no option.
-/

namespace Rulebook

/-! ### What can be asked for -/

/-- What can be asked for. -/
inductive Command where
  /-- Whether a value meets a threshold. -/
  | check (value threshold : String)
  /-- Whether the rule in a file goes with the catalog. -/
  | validate (file : String)
  /-- A description of the rule in a file, with an action. -/
  | describe (file action : String)
  /-- The version that becomes of the draft in a file. -/
  | draft (file : String)
  /-- The fields of the catalog. -/
  | fields
  /-- Whether the ruleset version in a file is as it should be, and its entries. -/
  | ruleset (file : String)
deriving DecidableEq, Repr

namespace Command

/-- The file that a command reads; `-` stands for the standard input. -/
def file? : Command → Option String
  | .validate file | .describe file _ | .draft file | .ruleset file => some file
  | .check _ _ | .fields => none

/-- The action of a description if none is given. -/
def defaultAction : String := "BLOCK"

/-- The command with a name, values and an action. -/
def of? (name : String) (values : List String) (action : Option String) : Option Command :=
  match name, values with
  | "check", [value, threshold] => some (.check value threshold)
  | "validate", [file] => some (.validate file)
  | "describe", [file] => some (.describe file (action.getD defaultAction))
  | "draft", [file] => some (.draft file)
  | "fields", [] => some .fields
  | "ruleset", [file] => some (.ruleset file)
  | _, _ => none

end Command

/-- A command and the options it is given with. -/
structure CommandLine where
  /-- What reports are to be written as. -/
  format : Option OutputFormat
  /-- Whether colours are turned off. -/
  noColour : Bool
  /-- The settings file. -/
  settings : Option String
  /-- Whether progress is to be told. -/
  verbose : Bool
  /-- The command; without one a sample is shown. -/
  command : Option Command
deriving DecidableEq, Repr

/-- What the arguments ask for. -/
inductive Request where
  /-- To run a command. -/
  | run (line : CommandLine)
  /-- To tell how the program is used. -/
  | help
  /-- To tell its version. -/
  | version
deriving DecidableEq, Repr

namespace CommandLine

/-! ### Options -/

/-- The options. -/
inductive Switch where
  /-- What reports are to be written as. -/
  | format
  /-- The settings file. -/
  | settings
  /-- The action. -/
  | action
  /-- Turns colours off. -/
  | noColour
  /-- Wants progress to be told. -/
  | verbose
  /-- Asks how the program is used. -/
  | help
  /-- Asks for its version. -/
  | version
deriving DecidableEq, Repr

/-- What may stand on one side of the name of a command. -/
structure Side where
  /-- How many values there may be. -/
  values : Nat
  /-- Whether a value may be a number with a minus sign. -/
  negative : Bool
  /-- Whether there is an option for the action. -/
  action : Bool
  /-- Whether this is the side in front of the name. -/
  front : Bool
deriving DecidableEq, Repr

/-- What may stand in front of the name of a command. -/
def Side.before : Side := ⟨0, false, false, true⟩

/-- What may stand behind the name of a command. -/
def Side.behind? : String → Option Side
  | "check" => some ⟨2, true, false, false⟩
  | "describe" => some ⟨1, false, true, false⟩
  | "validate" | "draft" | "ruleset" => some ⟨1, false, false, false⟩
  | "fields" => some ⟨0, false, false, false⟩
  | _ => none

/-- The option with a long name. -/
def long? (side : Side) : String → Option Switch
  | "format" => some .format
  | "config" => some .settings
  | "no-color" => some .noColour
  | "verbose" => some .verbose
  | "help" => some .help
  | "version" => if side.front then some .version else none
  | "action" => if side.action then some .action else none
  | _ => none

/-- The option with a short name. -/
def short? (side : Side) : Char → Option Switch
  | 'f' => some .format
  | 'c' => some .settings
  | 'v' => some .verbose
  | 'h' => some .help
  | 'V' => if side.front then some .version else none
  | 'a' => if side.action then some .action else none
  | _ => none

/-! ### What has been said -/

/-- What the arguments on one side have said. -/
structure Said where
  /-- What reports are to be written as. -/
  format : Option OutputFormat
  /-- The settings file. -/
  settings : Option String
  /-- The action. -/
  action : Option String
  /-- Whether colours are turned off. -/
  noColour : Bool
  /-- Whether progress is to be told. -/
  verbose : Bool
  /-- The values, the last first. -/
  values : List String
deriving DecidableEq, Repr

/-- Nothing has been said. -/
def Said.nothing : Said := ⟨none, none, none, false, false, []⟩

/-- What an argument, or a part of one, comes to. -/
inductive Effect where
  /-- Something has been said. -/
  | said (s : Said)
  /-- An option needs its value from the next argument. -/
  | wants (switch : Switch) (s : Said)
  /-- The program is to tell how it is used. -/
  | help
  /-- The program is to tell its version. -/
  | version
  /-- The argument is not well formed. -/
  | wrong
deriving DecidableEq, Repr

/-- Gives an option its value. It must not have one already. -/
def Said.give (s : Said) (switch : Switch) (value : String) : Effect :=
  match switch, s.format, s.settings, s.action with
  | .format, none, _, _ =>
    match OutputFormat.names.find? fun row => row.1 == value with
    | some row => .said { s with format := some row.2 }
    | none => .wrong
  | .settings, _, none, _ =>
    -- An empty name is no name of a file.
    if value.isEmpty then .wrong else .said { s with settings := some value }
  | .action, _, _, none => .said { s with action := some value }
  | _, _, _, _ => .wrong

/-- Turns on an option that takes no value. It must not be on already. An option that takes
one is left waiting. -/
def Said.turn (s : Said) : Switch → Effect
  | .noColour => if s.noColour then .wrong else .said { s with noColour := true }
  | .verbose => if s.verbose then .wrong else .said { s with verbose := true }
  | .help => .help
  | .version => .version
  | switch => .wants switch s

/-! ### Single arguments -/

/-- Reads short names that stand together. The last of them may have its value behind it. -/
def readShort (side : Side) : Said → List Char → Effect
  | s, [] => .said s
  | s, c :: cs =>
    match short? side c with
    | none => .wrong
    | some switch =>
      match s.turn switch, cs with
      | .said s, cs => readShort side s cs
      -- What is left of the argument is the value.
      | .wants switch s, '=' :: value => s.give switch (String.ofList value)
      | .wants switch s, v :: value => s.give switch (String.ofList (v :: value))
      | effect, _ => effect

/-- Reads a long name, which may have its value behind an equality sign. -/
def readLong (side : Side) (s : Said) (cs : List Char) : Effect :=
  let (name, value) := cs.span (· != '=')
  match long? side (String.ofList name) with
  | none => .wrong
  | some switch =>
    match s.turn switch, value with
    | .wants switch s, _ :: value => s.give switch (String.ofList value)
    -- An option that takes no value has got one.
    | _, _ :: _ => .wrong
    | effect, [] => effect

/-- Whether a text is digits, perhaps with a point and an exponent mark behind the first of
them, the point in front of the mark and the mark not at the end. -/
def looksNumeric (cs : List Char) : Bool :=
  let mark := fun (c : Char) => c == 'e' || c == 'E'
  let (front, back) := cs.span fun c => !mark c
  let (whole, fraction) := front.span (· != '.')
  whole.all Char.isDigit && (fraction.drop 1).all Char.isDigit && (back.drop 1).all Char.isDigit &&
    (fraction.isEmpty || !whole.isEmpty) && (back.isEmpty || (!front.isEmpty && back.length != 1))

/-- Whether an argument is read as options: it starts with a hyphen and goes on, and is not
a number where one may stand. -/
def isOptions (side : Side) (s : Said) : List Char → Bool
  | '-' :: c :: cs =>
    !(side.negative && decide (s.values.length < side.values) && looksNumeric (c :: cs))
  | _ => false

/-- Reads an argument that is read as options. -/
def readOptions (side : Side) (s : Said) : List Char → Effect
  | '-' :: '-' :: cs => readLong side s cs
  | _ :: cs => readShort side s cs
  | [] => .wrong

/-! ### All arguments -/

/-- How the reading of one side ends. -/
inductive Ending where
  /-- With the last argument. -/
  | ended (s : Said)
  /-- With the name of a command, behind which other arguments stand. -/
  | command (s : Said) (name : String) (rest : List String)
  /-- With a wish to be told how the program is used. -/
  | help
  /-- With a wish to be told its version. -/
  | version
  /-- With an argument that is not well formed. -/
  | wrong
deriving DecidableEq, Repr

/-- Takes arguments as values. -/
def takeValues (side : Side) (s : Said) (args : List String) : Ending :=
  if s.values.length + args.length ≤ side.values then
    .ended { s with values := args.reverse ++ s.values }
  else .wrong

/-- Reads the arguments on one side. -/
def readSide (side : Side) : Said → List String → Ending
  | s, [] => .ended s
  | s, "--" :: rest => takeValues side s rest
  | s, arg :: rest =>
    if isOptions side s arg.toList then
      match readOptions side s arg.toList, rest with
      | .said s, rest => readSide side s rest
      | .wants switch s, value :: rest =>
        -- An option is never the value of another one.
        if isOptions side s value.toList then .wrong
        else
          match s.give switch value with
          | .said s => readSide side s rest
          | _ => .wrong
      | .wants _ _, [] => .wrong
      | .help, _ => .help
      | .version, _ => .version
      | .wrong, _ => .wrong
    -- The first argument in front that is no option is the name of a command.
    else if side.front then .command s arg rest
    else if s.values.length < side.values then
      readSide side { s with values := arg :: s.values } rest
    else .wrong

/-- What has been said on both sides. Of two values for an option that behind the name
counts. -/
def combine (front behind : Said) (ambient : Option String) (command : Option Command) :
    CommandLine :=
  { format := behind.format.or front.format
    noColour := front.noColour || behind.noColour
    settings := (behind.settings.or front.settings).or ambient
    verbose := front.verbose || behind.verbose
    command }

/-- **What the arguments ask for.** If they name no settings file an environment variable
may. The variable is looked at on each side that does not name the file, and must not be
empty there. -/
def read? (ambient : Option String) (args : List String) : Option Request :=
  match readSide .before .nothing args with
  | .wrong => none
  | .help => some .help
  | .version => some .version
  | .ended front =>
    if front.settings.isNone && ambient == some "" then none
    else some (.run (combine front .nothing ambient none))
  | .command front name rest =>
    if name = "help" then
      match rest with
      | [] => some .help
      | [topic] => if topic = "help" || (Side.behind? topic).isSome then some .help else none
      | _ => none
    else do
      let side ← Side.behind? name
      match readSide side .nothing rest with
      | .help => some .help
      | .ended behind =>
        let command ← Command.of? name behind.values.reverse behind.action
        let consulted := front.settings.isNone || behind.settings.isNone
        if consulted && ambient == some "" then none
        else some (.run (combine front behind ambient (some command)))
      | _ => none

end CommandLine

end Rulebook
