import Rulebook.Error
import Rulebook.Settings.Basic

/-!
# What can go wrong with a command

* `Rulebook.FileError` – why a file cannot be read;
* `Rulebook.CommandError` – why a command fails;
* `Rulebook.CommandError.message` – the wording of it.
-/

namespace Rulebook

/-- Why a file cannot be read. -/
inductive FileError where
  /-- There is none. -/
  | notFound
  /-- It is a directory. -/
  | directory
  /-- A part of its path is no directory. -/
  | notDirectory
  /-- Its name is too long. -/
  | nameTooLong
  /-- It is not text. -/
  | notText
  /-- Another reason. -/
  | other (reason : String)
deriving DecidableEq, Repr

/-- The wording of why a file cannot be read. -/
def FileError.message : FileError → String
  | .notFound => "No such file or directory (os error 2)"
  | .directory => "Is a directory (os error 21)"
  | .notDirectory => "Not a directory (os error 20)"
  | .nameTooLong => "File name too long (os error 36)"
  | .notText => "stream did not contain valid UTF-8"
  | .other reason => reason

/-- Why a command fails. -/
inductive CommandError where
  /-- The settings file cannot be read. -/
  | settingsFile (path : String) (e : FileError)
  /-- The settings file is faulty. -/
  | settings (fault : Settings.Fault)
  /-- The file that a command reads cannot be read. -/
  | file (e : FileError)
  /-- An argument spells no number. -/
  | operand (e : RuleError)
  /-- An action is blank. -/
  | blankAction
  /-- A document is no draft. -/
  | draft (cause : DecodeError)
  /-- Something is wrong with a rule, a draft or a ruleset. -/
  | rule (e : RuleError)
  /-- A report cannot be serialized. -/
  | report (reason : String)
deriving DecidableEq, Repr

/-- The wording of why a command fails. -/
def CommandError.message : CommandError → String
  | .settingsFile path e => "Configuration error: Failed to read " ++ path ++ ": " ++ e.message
  | .settings fault => "TOML parsing error: " ++ fault.message
  | .file e => "I/O error: " ++ e.message
  | .operand e => "Invalid input: " ++ e.message
  | .blankAction => "Invalid input: Action cannot be empty"
  | .draft cause => "Serialization error: " ++ cause.message?.getD "not JSON"
  | .rule e => e.message
  | .report reason => "Serialization error: " ++ reason

end Rulebook
