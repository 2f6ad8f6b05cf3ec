import Rulebook.Report.Basic
import Rulebook.Settings.Toml

/-!
# Settings

A file may say how reports are written, and add fields to the catalog.

* `Rulebook.Settings` – what is said;
* `Rulebook.Settings.name`, `Rulebook.Settings.record` – how the tables of a settings file are
  decoded where that differs from the records of JSON text;
* `Rulebook.TomlReader` – what TOML is read with;
* `Rulebook.Settings.read`, `Rulebook.Settings.ofToml` – what a text says, read with some reader
  and read with the one of the program;
* `Rulebook.Settings.catalog` – the built-in catalog with the fields added.
-/

namespace Rulebook

/-- What TOML is read with. It gives the value of a text, in which tables are objects, or none if
the text is not TOML. -/
abbrev TomlReader := String → Option Json

/-- How reports are written unless the command line says otherwise. -/
structure Preferences where
  /-- Whether some of the text is coloured. -/
  coloured : Bool
  /-- What reports are written as. -/
  format : OutputFormat
deriving DecidableEq, Repr

/-- What a settings file says. -/
structure Settings where
  /-- How reports are written. -/
  preferences : Preferences
  /-- Fields that are added to the catalog. -/
  fields : List Field
deriving DecidableEq, Repr

namespace Settings

/-- What holds without a file. -/
def default : Settings := ⟨⟨true, .table⟩, []⟩

/-! ### Decoding -/

/-- One name out of several. It stands alone, or as the only name in a table, with nothing
in the table or array under it. -/
def name {α : Type} (table : List (String × α)) : Document → Decoded α
  | .record [(some s, .record [] _)] _ | .record [(some s, .list [] _)] _ => Decode.named table s
  | d => do Decode.named table (← Decode.string d)

/-- A table of a form. In an array of its fields more items may follow. -/
def record {α : Type} (title : String) (form : Form Document α) : Document → Decoded α
  | .list ds closed => form.decodeDocument title (.list (ds.take form.names.length) closed)
  | d => form.decodeDocument title d

/-- The preferences that a document describes. -/
def decodePreferences : Document → Decoded Preferences :=
  record "struct Settings" <|
    Preferences.mk <$> .defaulted "color" Decode.bool true
      <*> .defaulted "format" (name OutputFormat.names) .table

/-- The field that a document describes. -/
def decodeField : Document → Decoded Field :=
  record Field.title (Field.form (name FieldType.table))

/-- The form of the settings. -/
def form : Form Document Settings :=
  Settings.mk <$> .defaulted "settings" decodePreferences default.preferences
    <*> .defaulted "fields" (Decode.list decodeField) []

/-- The settings that a document describes. -/
def decode : Document → Decoded Settings := record "struct Config" form

/-! ### Reading -/

/-- What a settings file is faulty for. -/
inductive Fault where
  /-- It is not TOML. -/
  | malformed
  /-- It does not describe settings. -/
  | shape (cause : DecodeError)
deriving DecidableEq, Repr

/-- The wording of a fault. -/
def Fault.message : Fault → String
  | .malformed => "not TOML"
  | .shape cause => cause.message?.getD "not TOML"

/-- **What a text says**, read with some reader. -/
def read (toml : TomlReader) (text : String) : Except Fault Settings :=
  match toml text with
  | none => .error .malformed
  | some j => (decode (.ofJson j)).mapError .shape

/-- What a text says. -/
def ofToml : String → Except Fault Settings := read Toml.read?

/-- **The built-in catalog with the fields added.** -/
def catalog (s : Settings) : Catalog := Catalog.builtin.extend s.fields

end Settings

end Rulebook
