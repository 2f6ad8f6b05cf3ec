import Rulebook.Number.Layout

/-!
# JSON values and their text

* `Rulebook.Json` – a value. The members of an object are kept in their order, also if two
  have the same name;
* `Rulebook.Json.compact` – its text without spaces;
* `Rulebook.Json.pretty` – its text over several lines, indented by two spaces.
-/

namespace Rulebook

/-- A JSON value. -/
inductive Json where
  /-- The value that stands for no value. -/
  | null
  /-- A truth value. -/
  | bool (b : Bool)
  /-- A number without fraction and exponent. -/
  | integer (i : Int)
  /-- Any other number. -/
  | real (x : Double)
  /-- A text. -/
  | string (s : String)
  /-- A list of values. -/
  | array (items : List Json)
  /-- A list of values with names. -/
  | object (members : List (String × Json))
deriving Repr

namespace Json

/-! ### Texts -/

/-- A character inside a JSON string: quotation marks, backslashes and control characters
are escaped, nothing else is. -/
def escape (c : Char) : List Char :=
  if c = '"' then ['\\', '"']
  else if c = '\\' then ['\\', '\\']
  else if c = '\n' then ['\\', 'n']
  else if c = '\r' then ['\\', 'r']
  else if c = '\t' then ['\\', 't']
  else if c.toNat = 8 then ['\\', 'b']
  else if c.toNat = 12 then ['\\', 'f']
  else if c.toNat < 32 then
    ['\\', 'u', '0', '0', Nat.digitChar (c.toNat / 16), Nat.digitChar (c.toNat % 16)]
  else [c]

/-- The text of a JSON string. -/
def quote (s : String) : String := String.ofList ('"' :: (s.toList.flatMap escape ++ ['"']))

/-- The text of a number; a number that is not finite has no text in JSON. -/
def realText (x : Double) : String := if x.isFinite then Layout.wire.text x else "null"

mutual

/-- **The text of a value without spaces.** -/
def compact : Json → String
  | .null => "null"
  | .bool b => if b then "true" else "false"
  | .integer i => toString i
  | .real x => realText x
  | .string s => quote s
  | .array items => "[" ++ ",".intercalate (compactItems items) ++ "]"
  | .object members => "\x7b" ++ ",".intercalate (compactMembers members) ++ "\x7d"

/-- The texts of the items of an array. -/
def compactItems : List Json → List String
  | [] => []
  | j :: js => compact j :: compactItems js

/-- The texts of the members of an object. -/
def compactMembers : List (String × Json) → List String
  | [] => []
  | (name, j) :: ms => (quote name ++ ":" ++ compact j) :: compactMembers ms

end

/-- The space in front of a line at a depth. -/
def indent (depth : Nat) : String := String.ofList (List.replicate (2 * depth) ' ')

/-- Lines between two brackets, each indented and all but the last ending in a comma. No
lines at all leave the brackets together. -/
def bracketed (opening closing : String) (depth : Nat) (lines : List String) : String :=
  if lines.isEmpty then opening ++ closing
  else
    opening ++ "\n" ++ ",\n".intercalate (lines.map (indent (depth + 1) ++ ·)) ++ "\n" ++
      indent depth ++ closing

mutual

/-- The text of a value over several lines, the first of which stands at a depth. -/
def prettyAt (depth : Nat) : Json → String
  | .array items => bracketed "[" "]" depth (prettyItems (depth + 1) items)
  | .object members => bracketed "\x7b" "\x7d" depth (prettyMembers (depth + 1) members)
  | .null => "null"
  | .bool b => if b then "true" else "false"
  | .integer i => toString i
  | .real x => realText x
  | .string s => quote s

/-- The texts of the items of an array. -/
def prettyItems (depth : Nat) : List Json → List String
  | [] => []
  | j :: js => prettyAt depth j :: prettyItems depth js

/-- The texts of the members of an object. -/
def prettyMembers (depth : Nat) : List (String × Json) → List String
  | [] => []
  | (name, j) :: ms => (quote name ++ ": " ++ prettyAt depth j) :: prettyMembers depth ms

end

/-- **The text of a value over several lines.** -/
def pretty (j : Json) : String := prettyAt 0 j

/-! ### Parts -/

/-- The value of the first member with a name. -/
def member? (name : String) : Json → Option Json
  | .object members => (members.find? fun m => m.1 == name).map Prod.snd
  | _ => none

/-- A member that is written only if it has a value. -/
def optional (name : String) : Option Json → List (String × Json)
  | none => []
  | some j => [(name, j)]

end Json

end Rulebook
