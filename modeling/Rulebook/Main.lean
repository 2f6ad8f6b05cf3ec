import Rulebook.Command.Run

/-!
# The program

Reads the arguments, the environment and the files, and prints what comes of them.
-/

namespace Rulebook.Program

/-- The text in some bytes. -/
def textOf (bytes : ByteArray) : FileText :=
  match String.fromUTF8? bytes with
  | some text => .ok text
  | none => .error .notText

/-- The number of an error of the system, which may be told with a minus sign. -/
def errorNumber (code : UInt32) : UInt32 := min code (0 - code)

/-- The reason for an error of the system. -/
def reasonOf : IO.Error → FileError
  | .noFileOrDirectory .. => .notFound
  | .inappropriateType _ code _ => if errorNumber code = 20 then .notDirectory else .directory
  | e@(.invalidArgument _ code _) =>
    if errorNumber code = 36 then .nameTooLong else .other (toString e)
  | e => .other (toString e)

/-- The text that an action reads. -/
def readText (action : IO ByteArray) : IO FileText := do
  try return textOf (← action) catch e => return .error (reasonOf e)

/-- The text of the settings file, if there is a place for one. -/
def readSettings (place : Option String) : IO FileText :=
  match place with
  | none => return .error .notFound
  | some path => readText (IO.FS.readBinFile path)

/-- The text of the file that a command reads. -/
def readInput (file : Option String) : IO FileText :=
  match file with
  | none => return .error .notFound
  | some "-" => readText (do (← IO.getStdin).readBinToEnd)
  | some path => readText (IO.FS.readBinFile path)

/-- The usual place of the settings file. -/
def usualSettings : IO (Option String) := do
  return (← IO.getEnv "HOME").map fun home => home ++ "/.rule-manager/config.toml"

end Rulebook.Program

open Rulebook Rulebook.Program

/-- Runs the program: the arguments are read, then the files that they name. -/
def main (args : List String) : IO UInt32 := do
  match CommandLine.read? (← IO.getEnv "RULE_MANAGER_CONFIG") args with
  | none =>
    IO.eprint Outcome.usage.stderr
    return 2
  | some .help =>
    IO.println Request.helpText
    return 0
  | some .version =>
    IO.println Request.versionText
    return 0
  | some (.run line) =>
    let place ← match line.settings with
      | some path => pure (some path)
      | none => usualSettings
    let settingsFile ← readSettings place
    let file ← readInput (line.command.bind Command.file?)
    let colours := coloursForced (← IO.getEnv "CLICOLOR_FORCE")
    let outcome := line.run colours settingsFile file
    IO.print outcome.stdout
    IO.eprint outcome.stderr
    return outcome.exit.toUInt32
