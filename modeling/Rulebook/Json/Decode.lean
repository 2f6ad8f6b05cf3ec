import Rulebook.Json.Document
import Rulebook.Json.Opaque
import Rulebook.Text.Quoted

/-!
# Decoding single values

A decoder turns a document into what it is meant to be, or tells why it cannot.

* `Rulebook.DecodeError` – the reasons, and `Rulebook.DecodeError.message?`, their wording.
  Text that is not JSON has no wording of its own;
* `Rulebook.Decode` – decoders of texts, truth values, integers, lists, and of one name out
  of several.
-/

namespace Rulebook

/-! ### What was found instead -/

/-- What a value is, as far as it matters when another was expected. -/
inductive Found where
  /-- The value `null`. -/
  | null
  /-- A truth value. -/
  | bool (b : Bool)
  /-- An integer. -/
  | integer (i : Int)
  /-- Any other number. -/
  | real (x : Double)
  /-- A text. -/
  | string (s : String)
  /-- A list. -/
  | list
  /-- A record. -/
  | record
deriving DecidableEq, Repr

/-- How a message names what was found. -/
def Found.text : Found → String
  | .null => "null"
  | .bool b => "boolean `" ++ (if b then "true" else "false") ++ "`"
  | .integer i => "integer `" ++ toString i ++ "`"
  | .real x => "floating point `" ++ Layout.wire.text x ++ "`"
  | .string s => "string " ++ Text.quoted s
  | .list => "sequence"
  | .record => "map"

/-! ### Reasons -/

/-- Why a document is not what it is meant to be. -/
inductive DecodeError where
  /-- It is not JSON. -/
  | malformed
  /-- A value is of another kind. -/
  | wrongType (found : Found) (expected : String)
  /-- A value is of the right kind but not one of the values that are allowed. -/
  | wrongValue (found : Found) (expected : String)
  /-- A list has too few or too many items. -/
  | wrongLength (length : Nat) (expected : String)
  /-- A name is not one of those that are known. -/
  | unknownName (name : String) (known : List String)
  /-- A field is absent. -/
  | missingField (name : String)
  /-- A field occurs twice. -/
  | duplicateField (name : String)
  /-- A value is of none of the kinds that a union has. -/
  | noKind (union : String)
deriving DecidableEq, Repr

namespace DecodeError

/-- A name between backquotes. -/
def backquoted (name : String) : String := "`" ++ name ++ "`"

/-- The names that would have been known. -/
def oneOf : List String → String
  | [] => "there are no variants"
  | [a] => "expected " ++ backquoted a
  | [a, b] => "expected " ++ backquoted a ++ " or " ++ backquoted b
  | names => "expected one of " ++ ", ".intercalate (names.map backquoted)

/-- **The wording of a reason.** -/
def message? : DecodeError → Option String
  | .malformed => none
  | .wrongType found expected =>
    some ("invalid type: " ++ found.text ++ ", expected " ++ expected)
  | .wrongValue found expected =>
    some ("invalid value: " ++ found.text ++ ", expected " ++ expected)
  | .wrongLength length expected =>
    some ("invalid length " ++ toString length ++ ", expected " ++ expected)
  | .unknownName name known =>
    some ("unknown variant " ++ backquoted name ++ ", " ++ oneOf known)
  | .missingField name => some ("missing field " ++ backquoted name)
  | .duplicateField name => some ("duplicate field " ++ backquoted name)
  | .noKind union => some ("data did not match any variant of untagged enum " ++ union)

end DecodeError

/-- What a decoding gives. -/
abbrev Decoded (α : Type) := Except DecodeError α

/-! ### What documents and values are -/

namespace Document

/-- What a document is; none if it is a fault or cannot be read. -/
def found? : Document → Option Found
  | .null => some .null
  | .bool b => some (.bool b)
  | .integer i => some (.integer i)
  | .real x => some (.real x)
  | .string s => some (.string s)
  | .list _ _ => some .list
  | .record _ _ => some .record
  | .unreadable | .fault => none

/-- The error of a document that is not what was expected. -/
def mismatch (d : Document) (expected : String) : DecodeError :=
  match d.found? with
  | some found => .wrongType found expected
  | none => .malformed

end Document

namespace Json

/-- What a value is. -/
def found : Json → Found
  | .null => .null
  | .bool b => .bool b
  | .integer i => .integer i
  | .real x => .real x
  | .string s => .string s
  | .array _ => .list
  | .object _ => .record

/-- The error of a value that is not what was expected. -/
def mismatch (j : Json) (expected : String) : DecodeError := .wrongType j.found expected

end Json

/-! ### Decoders -/

namespace Decode

/-- A text. -/
def string : Document → Decoded String
  | .string s => .ok s
  | d => .error (d.mismatch "a string")

/-- A truth value. -/
def bool : Document → Decoded Bool
  | .bool b => .ok b
  | d => .error (d.mismatch "a boolean")

/-- An integer of 64 bits. -/
def int64 : Document → Decoded Int64
  | .integer i =>
    if Int64.minValue.toInt ≤ i ∧ i ≤ Int64.maxValue.toInt then .ok (Int64.ofInt i)
    else .error (.wrongValue (.integer i) "i64")
  | d => .error (d.mismatch "i64")

/-- A natural number of 32 bits. -/
def uint32 : Document → Decoded UInt32
  | .integer i =>
    if 0 ≤ i ∧ i < UInt32.size then .ok (UInt32.ofNat i.toNat)
    else .error (.wrongValue (.integer i) "u32")
  | d => .error (d.mismatch "u32")

/-- A value that is read as a whole before it is decoded. -/
def whole {α : Type} (decode : Json → Decoded α) (d : Document) : Decoded α :=
  match d.value? with
  | some j => decode j
  | none => .error .malformed

/-- A value that is kept without being looked into. -/
def kept : Document → Decoded Opaque := whole fun j => .ok (.ofJson j)

/-- A value that may be `null` instead. -/
def option {α : Type} (decode : Document → Decoded α) : Document → Decoded (Option α)
  | .null => .ok none
  | d => some <$> decode d

/-- A list. Its items are decoded one after another. -/
def list {α : Type} (decode : Document → Decoded α) : Document → Decoded (List α)
  | .list items closed => do
    let xs ← items.mapM decode
    if closed then return xs else throw .malformed
  | d => .error (d.mismatch "a sequence")

/-- What a name stands for. -/
def named {α : Type} (table : List (String × α)) (name : String) : Decoded α :=
  match table.find? fun row => row.1 == name with
  | some row => .ok row.2
  | none => .error (.unknownName name (table.map Prod.fst))

/-- **One name out of several.** It stands alone, or as the only name in a record, with
`null` as its value. -/
def name {α : Type} (table : List (String × α)) : Document → Decoded α
  | .string s => named table s
  | .record ((some s, d) :: more) closed => do
    let a ← named table s
    -- The name is looked up before its value is read.
    match d with
    | .null => pure ()
    | d => throw (d.mismatch "unit")
    if more.isEmpty && closed then return a else throw .malformed
  | _ => .error .malformed

/-- One name out of several, in a value that was read before it is decoded. -/
def nameIn {α : Type} (table : List (String × α)) : Json → Decoded α
  | .string s => named table s
  | .object [(s, j)] => do
    let a ← named table s
    match j with
    | .null | .object [] => return a
    | j => throw (j.mismatch "unit")
  | .object _ => .error (.wrongValue .record "map with a single key")
  | j => .error (j.mismatch "string or map")

/-- A text, in a value that was read before it is decoded. -/
def stringIn : Json → Decoded String
  | .string s => .ok s
  | j => .error (j.mismatch "a string")

end Decode

end Rulebook
