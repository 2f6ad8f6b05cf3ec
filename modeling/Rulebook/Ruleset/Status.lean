/-!
# The status of a ruleset version

* `Rulebook.Status` – a version is drafted, approved, and then active;
* `Rulebook.Status.derive` – the status of a ruleset, which is the furthest that one of its
  versions has come;
* `Rulebook.Mode` – how the entries of a version are run.
-/

namespace Rulebook

/-- The status of a version of a ruleset. -/
inductive Status where
  /-- It may still be edited. -/
  | draft
  /-- It is frozen and may be activated. -/
  | approved
  /-- It is in force. -/
  | active
deriving DecidableEq, Repr

namespace Status

/-- The name of a status. -/
def name : Status → String
  | .draft => "DRAFT"
  | .approved => "APPROVED"
  | .active => "ACTIVE"

/-- All statuses, in the order in which messages list them. -/
def all : List Status := [.draft, .approved, .active]

/-- The statuses by their names. -/
def table : List (String × Status) := all.map fun s => (s.name, s)

/-- The further of two statuses. -/
def further : Status → Status → Status
  | .active, _ | _, .active => .active
  | .approved, _ | _, .approved => .approved
  | .draft, .draft => .draft

/-- **The furthest of several statuses**; that of a draft if there are none. -/
def derive (statuses : List Status) : Status := statuses.foldl further .draft

end Status

/-- How the entries of a version are run. -/
inductive Mode where
  /-- One after another, in the order of their priorities. -/
  | sequential
  /-- All at once; a precedence among decisions settles the outcome. -/
  | parallel
deriving DecidableEq, Repr

namespace Mode

/-- The name of a mode. -/
def name : Mode → String
  | .sequential => "SEQUENTIAL"
  | .parallel => "PARALLEL"

/-- The modes by their names. -/
def table : List (String × Mode) := [.sequential, .parallel].map fun m => (m.name, m)

end Mode

end Rulebook
