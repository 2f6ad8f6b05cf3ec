import Rulebook.Json.Token
import Rulebook.Json.Value

/-!
# Documents: JSON text as far as it can be read

A **document** is what a reader finds in a text, from left to right, before it meets the
first spot that is not JSON. It is kept although the text may be faulty further on, since
a value of the wrong kind that stands earlier is the earlier mistake.

* `Rulebook.Document` – a document;
* `Rulebook.Document.ofJson` – the document of a value, which has no faults;
* `Rulebook.Document.value?` – the value of a document without faults.
-/

namespace Rulebook

/-- What a reader finds in JSON text. -/
inductive Document where
  /-- The value `null`. -/
  | null
  /-- A truth value. -/
  | bool (b : Bool)
  /-- A number without fraction and exponent. -/
  | integer (i : Int)
  /-- Any other number. -/
  | real (x : Double)
  /-- A string. -/
  | string (s : String)
  /-- A well spelled value that cannot be read but may be skipped: a number that is too
  large, a string with half of a character in it, or brackets too deep inside others. -/
  | unreadable
  /-- A spot where a value should stand and none does. -/
  | fault
  /-- A list, and whether it is closed as it should be. -/
  | list (items : List Document) (closed : Bool)
  /-- A record, and whether it is closed as it should be. A name that cannot be read but
  may be skipped is absent. -/
  | record (members : List (Option String × Document)) (closed : Bool)
deriving Repr

namespace Document

mutual

/-- **The document of a value.** -/
def ofJson : Json → Document
  | .null => .null
  | .bool b => .bool b
  | .integer i => .integer i
  | .real x => .real x
  | .string s => .string s
  | .array items => .list (ofItems items) true
  | .object members => .record (ofMembers members) true

/-- The documents of the items of an array. -/
def ofItems : List Json → List Document
  | [] => []
  | j :: js => ofJson j :: ofItems js

/-- The documents of the members of an object. -/
def ofMembers : List (String × Json) → List (Option String × Document)
  | [] => []
  | (name, j) :: ms => (some name, ofJson j) :: ofMembers ms

end

mutual

/-- **The value of a document**; none if there is a fault in it, or a part that cannot be
read. -/
def value? : Document → Option Json
  | .null => some .null
  | .bool b => some (.bool b)
  | .integer i => some (.integer i)
  | .real x => some (.real x)
  | .string s => some (.string s)
  | .list items true => (values? items).map .array
  | .record members true => (memberValues? members).map .object
  | .unreadable | .fault | .list _ false | .record _ false => none

/-- The values of the items of a list. -/
def values? : List Document → Option (List Json)
  | [] => some []
  | d :: ds =>
    match value? d, values? ds with
    | some j, some js => some (j :: js)
    | _, _ => none

/-- The values of the members of a record. -/
def memberValues? : List (Option String × Document) → Option (List (String × Json))
  | [] => some []
  | (name, d) :: ms =>
    match name, value? d, memberValues? ms with
    | some name, some j, some rest => some ((name, j) :: rest)
    | _, _, _ => none

end

mutual

@[simp] theorem value?_ofJson : (j : Json) → value? (ofJson j) = some j
  | .array items => by simp [ofJson, value?, values?_ofItems items]
  | .object members => by simp [ofJson, value?, memberValues?_ofMembers members]
  | .null | .bool _ | .integer _ | .real _ | .string _ => rfl

@[simp] theorem values?_ofItems : (js : List Json) → values? (ofItems js) = some js
  | [] => rfl
  | j :: js => by simp [ofItems, values?, value?_ofJson j, values?_ofItems js]

@[simp] theorem memberValues?_ofMembers :
    (ms : List (String × Json)) → memberValues? (ofMembers ms) = some ms
  | [] => rfl
  | (name, j) :: ms => by
    simp [ofMembers, memberValues?, value?_ofJson j, memberValues?_ofMembers ms]

end

end Document

end Rulebook
