import Rulebook.Json.Decode

/-!
# Decoding records

A record is written with its fields as named members in any order, or as a list of its
fields in the order of their declaration. Of several mistakes in it the one that stands
first is reported, and a field that is absent counts as standing after all the others.

* `Rulebook.Form` – the **form** of a record: which fields it has and what is made of them.
  Forms are put together with `<$>` and `<*>` out of `Rulebook.Form.required`,
  `Rulebook.Form.defaulted` and `Rulebook.Form.optional`;
* `Rulebook.Form.decode` – what is made of a record that has the form.

A record is decoded while its text is read, or after it has been read as a whole; the
**parts** it is decoded from are documents in the first case.
-/

namespace Rulebook

/-- The outline of a record. -/
inductive Outline (δ : Type) where
  /-- Members with names, of which some cannot be read, and whether the record is closed. -/
  | members (ms : List (Option String × δ)) (closed : Bool)
  /-- The fields in their order, and whether the list of them is closed. -/
  | items (ds : List δ) (closed : Bool)

/-- A mistake and where it stands. -/
structure Mistake where
  /-- The number of the member or item; the end counts as one more. -/
  position : Nat
  /-- What is wrong. -/
  cause : DecodeError
deriving DecidableEq, Repr

/-- Applies a function to an argument unless there is a mistake in one of them. Of two
mistakes the one that stands first is kept, and the first of two that stand together. -/
def applyUnlessMistaken {α β : Type} :
    Except Mistake (α → β) → Except Mistake α → Except Mistake β
  | .ok f, .ok a => .ok (f a)
  | .ok _, .error m => .error m
  | .error m, .ok _ => .error m
  | .error m, .error m' => .error (if m'.position < m.position then m' else m)

/-- What is known of the fields of one record. -/
structure Slots (δ : Type) where
  /-- The part that is a field, and its position. -/
  find? : String → Option (Nat × δ)
  /-- The mistake that the absence of a field is. -/
  absent : String → Mistake

/-! ### Forms -/

/-- The name of a field, and other names it may be written with. -/
structure FieldName where
  /-- The name. -/
  name : String
  /-- The other names. -/
  others : List String
deriving DecidableEq, Repr

/-- Which fields a record has, and what is made of them. -/
structure Form (δ α : Type) where
  /-- The names of the fields in the order of their declaration. -/
  names : List FieldName
  /-- What is made of them. -/
  read : Slots δ → Except Mistake α

namespace Form

variable {δ α β : Type}

instance : Applicative (Form δ) where
  pure a := ⟨[], fun _ => .ok a⟩
  seq f x := ⟨f.names ++ (x ()).names, fun s => applyUnlessMistaken (f.read s) ((x ()).read s)⟩

/-- Reads a field, or takes what stands for its absence. -/
def field (name : FieldName) (decode : δ → Decoded α) (absent : Mistake → Except Mistake α) :
    Form δ α :=
  ⟨[name], fun s =>
    match s.find? name.name with
    | some (position, d) => (decode d).mapError fun cause => ⟨position, cause⟩
    | none => absent (s.absent name.name)⟩

/-- A field that has to be there. -/
def required (name : String) (decode : δ → Decoded α) : Form δ α := field ⟨name, []⟩ decode .error

/-- A field that has to be there and has a second name. -/
def requiredOr (name other : String) (decode : δ → Decoded α) : Form δ α :=
  field ⟨name, [other]⟩ decode .error

/-- A field that has a value if it is absent. -/
def defaulted (name : String) (decode : δ → Decoded α) (value : α) : Form δ α :=
  field ⟨name, []⟩ decode fun _ => .ok value

/-- A field that may be absent or `null`. -/
def optional (name : String) (decode : Document → Decoded α) : Form Document (Option α) :=
  defaulted name (Decode.option decode) none

/-! ### Decoding -/

/-- The field that a name means. -/
def canonical? (names : List FieldName) (written : String) : Option String :=
  (names.find? fun n => n.name == written || n.others.contains written).map FieldName.name

/-- The first member that is a field, its position counted on from a number. -/
def locate (names : List FieldName) (name : String) :
    Nat → List (Option String × δ) → Option (Nat × δ)
  | _, [] => none
  | i, (written, d) :: ms =>
    if written.bind (canonical? names) = some name then some (i, d)
    else locate names name (i + 1) ms

/-- The first mistake in how members are put together, positions counted on from a number
and some fields being there already: a name that cannot be read, a field that occurs
twice, or the lack of an end. -/
def misplaced (names : List FieldName) (closed : Bool) :
    Nat → List String → List (Option String × δ) → Except Mistake Unit
  | i, _, [] => if closed then .ok () else .error ⟨i, .malformed⟩
  | i, _, (none, _) :: _ => .error ⟨i, .malformed⟩
  | i, seen, (some written, _) :: ms =>
    match canonical? names written with
    | none => misplaced names closed (i + 1) seen ms
    | some name =>
      if seen.contains name then .error ⟨i, .duplicateField name⟩
      else misplaced names closed (i + 1) (name :: seen) ms

/-- A number of elements in words. -/
def elements (n : Nat) : String := if n = 1 then "1 element" else toString n ++ " elements"

/-- What is made of members. -/
def readMembers (form : Form δ α) (ms : List (Option String × δ)) (closed : Bool) :
    Except Mistake α :=
  applyUnlessMistaken ((fun _ a => a) <$> misplaced form.names closed 0 [] ms)
    -- An absent field is missed behind the end, where a lack of the end has been seen before.
    (form.read
      ⟨fun name => locate form.names name 0 ms, fun name => ⟨ms.length + 1, .missingField name⟩⟩)

/-- The place of a field in the list of all fields. -/
def place (names : List FieldName) (name : String) : Nat :=
  names.findIdx fun (n : FieldName) => n.name == name

/-- What is made of items. The title names the record in messages, and too many items are
a mistake that `excess` tells from their number and the number of the fields. -/
def readItems (title : String) (excess : Nat → Nat → DecodeError) (form : Form δ α)
    (ds : List δ) (closed : Bool) : Except Mistake α :=
  let fields := form.names.length
  -- An item too many is seen when the last field has been read.
  let shape : Except Mistake Unit :=
    if fields < ds.length then .error ⟨fields, excess ds.length fields⟩
    else if closed then .ok ()
    else .error ⟨ds.length, .malformed⟩
  let absent := fun name =>
    ⟨place form.names name,
      .wrongLength (place form.names name) (title ++ " with " ++ elements fields)⟩
  applyUnlessMistaken ((fun _ a => a) <$> shape)
    (form.read
      ⟨fun name => ds[place form.names name]?.map fun d => (place form.names name, d), absent⟩)

/-- **What is made of a record** with an outline. -/
def decode (title : String) (excess : Nat → Nat → DecodeError) (form : Form δ α) :
    Outline δ → Decoded α
  | .members ms closed => (form.readMembers ms closed).mapError Mistake.cause
  | .items ds closed => (form.readItems title excess ds closed).mapError Mistake.cause

/-- **What is made of a document** that is a record of the form. -/
def decodeDocument (title : String) (form : Form Document α) : Document → Decoded α
  | .record ms closed => form.decode title (fun _ _ => .malformed) (.members ms closed)
  | .list ds closed => form.decode title (fun _ _ => .malformed) (.items ds closed)
  | d => .error (d.mismatch title)

end Form

end Rulebook
