import Rulebook.Ruleset.Edit
import Rulebook.Ruleset.Version

/-!
# Editing a ruleset version

Only a draft can be edited.

* `Rulebook.Version.updateSettings` – changes the mode and the precedence;
* `Rulebook.Version.addEntry`, `Rulebook.Version.patchEntry`,
  `Rulebook.Version.deleteEntry` – change the entries;
* `Rulebook.VersionEdit` – all of these as data.
-/

namespace Rulebook

/-! ### What is asked for -/

/-- What is to become of an optional value. -/
inductive Change (α : Type) where
  /-- It stays. -/
  | keep
  /-- It goes. -/
  | clear
  /-- It is replaced. -/
  | set (a : α)
deriving DecidableEq, Repr

/-- Makes a change. -/
def Change.apply {α : Type} : Change α → Option α → Option α
  | .keep, old => old
  | .clear, _ => none
  | .set a, _ => some a

/-- What a ruleset has to know of a version of a rule. -/
structure RuleVersion where
  /-- Its id. -/
  id : String
  /-- The rule. -/
  ruleId : String
  /-- Its status. -/
  status : RuleStatus
  /-- Whether the rule is archived. -/
  archived : Bool
deriving DecidableEq, Repr

namespace Version

/-! ### Settings -/

/-- **Changes the mode and the precedence.** -/
def updateSettings (mode : Option Mode) (precedence : Change Opaque) : Edit Version Unit := do
  let v ← Edit.state
  Edit.require v.isDraft (.conflict .settingsFrozen)
  let mode := mode.getD v.mode
  let precedence := precedence.apply v.precedence
  Edit.lift (requirePrecedence mode precedence)
  Edit.modify fun v => { v with mode, precedence }

/-! ### Entries -/

/-- Whether a priority is that of no entry, save perhaps one with an id. -/
def priorityFree (v : Version) (priority : Int64) (except : Option String) : Bool :=
  !v.entries.any fun e => e.priority == some priority && some e.id != except

/-- The priority that a new entry gets: in a sequential version it has to be given and to be
free, in a parallel one there is none. -/
def newPriority (v : Version) (given : Option Int64) : Except RuleError (Option Int64) :=
  match v.mode, given with
  | .parallel, _ => .ok none
  | .sequential, none => .error (.unacceptable .priorityRequired)
  | .sequential, some p =>
    if v.priorityFree p none then .ok (some p) else .error (.conflict .priorityTaken)

/-- The entry for a version of a rule. -/
def entryFor (v : Version) (r : RuleVersion) (enabled : Bool) (priority : Option Int64) :
    Entry :=
  { id := entryIdOf v.id r.id
    ruleId := r.ruleId
    ruleVersionId := r.id
    enabled
    priority
    ruleStatus := some r.status
    archived := false }

/-- **Adds an entry** at the end. -/
def addEntry (r : RuleVersion) (enabled : Bool) (priority : Option Int64) :
    Edit Version Entry := do
  let v ← Edit.state
  Edit.require v.isDraft (.conflict .entriesFrozen)
  Edit.require (v.mode != .parallel || hasPrecedence v.precedence)
    (.unacceptable .precedenceUndefined)
  Edit.require (!r.archived) (.unacceptable .archivedRule)
  Edit.require (!v.entries.any fun e => e.ruleVersionId == r.id) (.conflict .duplicateRuleVersion)
  let priority ← Edit.lift (v.newPriority priority)
  let entry := v.entryFor r enabled priority
  Edit.modify fun v => { v with entries := v.entries ++ [entry] }
  return entry

/-- Edits the first entry with an id. -/
def onEntry {α : Type} (id : String) (e : Edit Entry α) : Edit Version α := fun v =>
  match Edit.onFirst (fun entry : Entry => entry.id == id) e v.entries with
  | some (r, entries) => (r, { v with entries })
  | none => (.error (.notFound .entry), v)

/-- Changes whether an entry is run and when, as far as it is asked for. -/
def patch (enabled : Option Bool) (priority : Option Int64) : Edit Entry Entry := do
  if let some b := enabled then Edit.modify fun e => { e with enabled := b }
  if let some p := priority then Edit.modify fun e => { e with priority := some p }
  Edit.state

/-- **Changes an entry.** Only a sequential version has priorities to change, and they stay
distinct. -/
def patchEntry (id : String) (enabled : Option Bool) (priority : Option Int64) :
    Edit Version Entry := do
  let v ← Edit.state
  Edit.require (v.entries.any fun e => e.id == id) (.notFound .entry)
  Edit.require v.isDraft (.conflict .entryFrozen)
  -- The entry may keep the priority that it has.
  if let some p := priority then
    Edit.require (v.mode == .sequential) (.unacceptable .priorityUnused)
    Edit.require (v.priorityFree p (some id)) (.conflict .priorityTaken)
  onEntry id (patch enabled priority)

/-- **Removes an entry.** -/
def deleteEntry (id : String) : Edit Version Entry := do
  let v ← Edit.state
  match v.entries.find? fun e => e.id == id with
  | none => Edit.fail (.notFound .entry)
  | some entry =>
    Edit.require v.isDraft (.conflict .deletionFrozen)
    Edit.modify fun v => { v with entries := v.entries.eraseP fun e => e.id == id }
    return entry

end Version

/-! ### Edits as data -/

/-- An edit of a version. -/
inductive VersionEdit where
  /-- Changes the mode and the precedence. -/
  | updateSettings (mode : Option Mode) (precedence : Change Opaque)
  /-- Adds an entry. -/
  | addEntry (r : RuleVersion) (enabled : Bool) (priority : Option Int64)
  /-- Changes an entry. -/
  | patchEntry (id : String) (enabled : Option Bool) (priority : Option Int64)
  /-- Removes an entry. -/
  | deleteEntry (id : String)

/-- What an edit of a version does; only the edits of entries give an entry. -/
def VersionEdit.perform : VersionEdit → Edit Version (Option Entry)
  | .updateSettings mode precedence => do
    Version.updateSettings mode precedence
    return none
  | .addEntry r enabled priority => some <$> Version.addEntry r enabled priority
  | .patchEntry id enabled priority => some <$> Version.patchEntry id enabled priority
  | .deleteEntry id => some <$> Version.deleteEntry id

end Rulebook
