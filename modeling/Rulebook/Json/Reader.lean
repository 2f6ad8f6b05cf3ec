import Rulebook.Json.Document

/-!
# Reading JSON text

The reader goes through the tokens of a text with a stack of the lists and records that
are open. At the first token that is out of place it gives up, and closes what is open
as faulty.

* `Rulebook.Reader.State` – what the reader waits for;
* `Rulebook.Reader.step` – one token;
* `Rulebook.Document.read` – **the document of a text**, and whether the text ends with it.

Brackets inside `Rulebook.Reader.depth` others are not read, but they may be skipped.
-/

namespace Rulebook

namespace Reader

/-- How many lists and records may be open for another one to be read. -/
def depth : Nat := 127

/-- A list or record that is open, with what has been found in it, the last first. -/
inductive Frame where
  /-- A list. -/
  | list (items : List Document)
  /-- A record. -/
  | record (members : List (Option String × Document))
  /-- A record, and the name of the member whose value is to come. -/
  | named (members : List (Option String × Document)) (name : Option String)

/-- What the reader waits for. -/
inductive State where
  /-- A value; if a list was just opened, also its end. -/
  | value (stack : List Frame) (opened : Bool)
  /-- A name in a record; if the record was just opened, also its end. -/
  | name (stack : List Frame) (members : List (Option String × Document)) (opened : Bool)
  /-- The colon behind a name. -/
  | colon (stack : List Frame) (members : List (Option String × Document)) (name : Option String)
  /-- A comma, or the end of the innermost list or record. -/
  | more (stack : List Frame)
  /-- The end of the text. -/
  | ended (root : Document)
  /-- Nothing: the reader has given up. -/
  | stopped (root : Document)

/-- A list or record inside so many others; too deep inside, it is replaced. -/
def within (stack : List Frame) (instead d : Document) : Document :=
  if depth ≤ stack.length then instead else d

/-- Gives a complete value to what it stands in. -/
def give (stack : List Frame) (d : Document) : State :=
  match stack with
  | [] => .ended d
  | .list items :: stack => .more (.list (d :: items) :: stack)
  | .named members name :: stack => .more (.record ((name, d) :: members) :: stack)
  | .record members :: stack => .more (.record ((none, d) :: members) :: stack)

/-- Closes everything that is open as faulty, around a last value. -/
def closeAround : List Frame → Document → Document
  | [], d => d
  | .list items :: stack, d =>
    closeAround stack (within stack .fault (.list (d :: items).reverse false))
  | .named members name :: stack, d =>
    closeAround stack (within stack .fault (.record ((name, d) :: members).reverse false))
  | .record members :: stack, _ =>
    closeAround stack (within stack .fault (.record members.reverse false))

/-- Gives up where a record waits for a name or a colon. -/
def stopInRecord (stack : List Frame) (members : List (Option String × Document)) : State :=
  .stopped (closeAround stack (within stack .fault (.record members.reverse false)))

/-- The value that a token is by itself, if it is one. -/
def scalar? : Token → Option Document
  | .null => some .null
  | .bool b => some (.bool b)
  | .integer i => some (.integer i)
  | .real x => some (.real x)
  | .string s => some (.string s)
  | .hugeNumber | .brokenString => some .unreadable
  | .openList | .openRecord | .closeList | .closeRecord | .comma | .colon | .bad => none

/-- **One token.** -/
def step : State → Token → State
  | .value stack opened, token =>
    match token with
    -- What is opened may be too deep; that is seen to when it is closed.
    | .openList => .value (.list [] :: stack) true
    | .openRecord => .name stack [] true
    | .closeList =>
      -- Behind a comma a value has to follow.
      match opened, stack with
      | true, .list [] :: stack => give stack (within stack .unreadable (.list [] true))
      | _, _ => .stopped (closeAround stack .fault)
    | token =>
      match scalar? token with
      | some d => give stack d
      | none => .stopped (closeAround stack .fault)
  | .name stack members opened, token =>
    match token, opened with
    | .string s, _ => .colon stack members (some s)
    | .brokenString, _ => .colon stack members none
    | .closeRecord, true => give stack (within stack .unreadable (.record members.reverse true))
    | _, _ => stopInRecord stack members
  | .colon stack members name, token =>
    match token with
    | .colon => .value (.named members name :: stack) false
    | _ => stopInRecord stack ((name, .fault) :: members)
  | .more (.list items :: stack), token =>
    match token with
    | .comma => .value (.list items :: stack) false
    | .closeList => give stack (within stack .unreadable (.list items.reverse true))
    | _ => .stopped (closeAround stack (within stack .fault (.list items.reverse false)))
  | .more (.record members :: stack), token =>
    match token with
    | .comma => .name stack members false
    | .closeRecord => give stack (within stack .unreadable (.record members.reverse true))
    | _ => stopInRecord stack members
  | .more stack, _ => .stopped (closeAround stack .fault)
  | .ended root, _ => .stopped root
  | .stopped root, _ => .stopped root

end Reader

/-- What is read from a text. -/
structure Reading where
  /-- The document that the text starts with. -/
  root : Document
  /-- Whether the text ends with it. -/
  complete : Bool
deriving Repr

namespace Reader

/-- What has been read when the text ends. -/
def finish (s : State) : Reading :=
  match s with
  | .ended root => ⟨root, true⟩
  | s =>
    -- The end of the text is one more spot where no token starts.
    match step s .bad with
    | .stopped root => ⟨root, false⟩
    | _ => ⟨.fault, false⟩

end Reader

/-- **The document of a text.** -/
def Document.read (s : String) : Reading :=
  Reader.finish ((Token.tokens s.toList).foldl Reader.step (.value [] false))

end Rulebook
