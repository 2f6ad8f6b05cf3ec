import Rulebook.Ruleset.VersionEdit

/-!
# Rulesets

A **ruleset** is a list of numbered versions, of which at most one is active.

* `Rulebook.Ruleset` – the record;
* `Rulebook.Ruleset.create` – a ruleset with a first version;
* `Rulebook.Ruleset.newVersion`, `Rulebook.Ruleset.approve`, `Rulebook.Ruleset.activate`,
  `Rulebook.Ruleset.rollback` – the life of its versions;
* `Rulebook.Ruleset.onVersion` – an edit of one of them.
-/

namespace Rulebook

/-! ### Records -/

/-- What a ruleset is made of at first. -/
structure NewRuleset where
  /-- The id of the ruleset. -/
  id : String
  /-- Its name. -/
  name : String
  /-- What it is for. -/
  description : String
  /-- Words to find it by. -/
  tags : List String
  /-- How the entries of its first version are run. -/
  mode : Mode
  /-- The precedence of its first version. -/
  precedence : Option Opaque
  /-- The author. -/
  createdBy : String
deriving Repr

/-- The form of the record that a ruleset is made of. -/
def NewRuleset.form : Form Document NewRuleset :=
  NewRuleset.mk <$> .required "rulesetId" Decode.string
    <*> .required "name" Decode.string
    <*> .required "description" Decode.string
    <*> .defaulted "tags" (Decode.list Decode.string) []
    <*> .required "executionMode" (Decode.name Mode.table)
    <*> .optional "decisionPrecedence" Decode.kept
    <*> .required "createdBy" Decode.string

/-- What a document says that a ruleset is made of. -/
def NewRuleset.decode : Document → Decoded NewRuleset := form.decodeDocument "struct NewRuleset"

/-- A ruleset with its versions. -/
structure Ruleset where
  /-- The id of the ruleset. -/
  id : String
  /-- Its name. -/
  name : String
  /-- What it is for. -/
  description : String
  /-- Words to find it by. -/
  tags : List String
  /-- The author. -/
  createdBy : String
  /-- Its versions. -/
  versions : List Version
deriving Repr

namespace Ruleset

/-- The form of the record of a ruleset. -/
def form : Form Document Ruleset :=
  Ruleset.mk <$> .required "rulesetId" Decode.string
    <*> .required "name" Decode.string
    <*> .defaulted "description" Decode.string ""
    <*> .defaulted "tags" (Decode.list Decode.string) []
    <*> .required "createdBy" Decode.string
    <*> .defaulted "versions" (Decode.list Version.decode) []

/-- The ruleset that a document describes. -/
def decode : Document → Decoded Ruleset := form.decodeDocument "struct Ruleset"

/-- The JSON form of a ruleset. -/
def toJson (s : Ruleset) : Json :=
  .object
    [("rulesetId", .string s.id), ("name", .string s.name),
     ("description", .string s.description), ("tags", .array (s.tags.map .string)),
     ("createdBy", .string s.createdBy), ("versions", .array (s.versions.map Version.toJson))]

/-- **A ruleset with a first version**, which has no entries. -/
def create (input : NewRuleset) : Except RuleError Ruleset := do
  let first ← Version.start input.id 1 input.mode input.precedence input.createdBy
  return {
    id := input.id
    name := input.name
    description := input.description
    tags := input.tags
    createdBy := input.createdBy
    versions := [first] }

/-! ### Looking at versions -/

/-- The status of the ruleset: the furthest that one of its versions has come. -/
def derivedStatus (s : Ruleset) : Status := .derive (s.versions.map Version.status)

/-- The active version. -/
def activeVersion? (s : Ruleset) : Option Version :=
  s.versions.find? fun v => v.status == .active

/-- The version with an id. -/
def version? (s : Ruleset) (id : String) : Option Version := s.versions.find? fun v => v.id == id

/-- The version with an id, which has to exist. -/
def version (s : Ruleset) (id : String) : Except RuleError Version :=
  match s.version? id with
  | some v => .ok v
  | none => .error (.notFound .version)

/-- The version with the highest number, of several such the last. -/
def latest? (s : Ruleset) : Option Version :=
  s.versions.foldl
    (fun best v =>
      match best with
      -- Of two with the same number the later one is taken.
      | some b => if v.number < b.number then some b else some v
      | none => some v)
    none

/-! ### The life of versions -/

/-- Edits the version with an id. -/
def onVersion {α : Type} (id : String) (e : Edit Version α) : Edit Ruleset α := fun s =>
  match Edit.onFirst (fun v : Version => v.id == id) e s.versions with
  | some (r, versions) => (r, { s with versions })
  | none => (.error (.notFound .version), s)

/-- The entries of a version, copied into the version with an id. -/
def copyEntries (versionId : String) (entries : List Entry) : List Entry :=
  entries.map fun e => { e with id := Version.entryIdOf versionId e.ruleVersionId }

/-- **Starts a new version** with the settings and entries of the latest one. -/
def newVersion (createdBy : String) : Edit Ruleset Version := do
  let s ← Edit.state
  match s.latest? with
  | none => Edit.fail (.notFound .latestVersion)
  | some latest =>
    let next ← Edit.lift
      (Version.start s.id (latest.number + 1) latest.mode latest.precedence createdBy)
    -- An entry is named after the version it stands in.
    let next := { next with entries := copyEntries next.id latest.entries }
    Edit.modify fun s => { s with versions := s.versions ++ [next] }
    return next

/-- **Freezes a draft.** -/
def approve (id actor : String) : Edit Ruleset Version :=
  onVersion id do
    let v ← Edit.state
    Edit.require v.isDraft (.conflict .approvedAlready)
    Edit.modify fun v => { v with status := .approved, approvedBy := some actor }
    Edit.state

/-- What the activation of the version with an id makes of a version. -/
def promote (id actor : String) (v : Version) : Version :=
  if v.id == id then { v with status := .active, activatedBy := some actor }
  else if v.status == .active then { v with status := .approved, activatedBy := none }
  else v

/-- Activates an approved version, which has to belong to a ruleset if one is given. The
version that was active is approved again. -/
def activateFor (owner : Option String) (id actor : String) : Edit Ruleset Version := do
  let s ← Edit.state
  let target ← Edit.lift (s.version id)
  Edit.require (owner.all fun o => target.rulesetId == o) (.unacceptable .foreignVersion)
  Edit.require (target.status == .approved) (.conflict .notApproved)
  Edit.modify fun s => { s with versions := s.versions.map (promote id actor) }
  let s ← Edit.state
  Edit.lift (s.version id)

/-- **Activates an approved version.** -/
def activate (id actor : String) : Edit Ruleset Version := activateFor none id actor

/-- **Activates a version again** that belongs to a ruleset. -/
def rollback (rulesetId id actor : String) : Edit Ruleset Version :=
  activateFor (some rulesetId) id actor

end Ruleset

end Rulebook
