import Rulebook.Ruleset.Basic

/-!
# Checking rulesets

A ruleset that was loaded may be in a state that no edit leads to.

* `Rulebook.Version.check` – whether a version is as the edits keep it;
* `Rulebook.Ruleset.check` – whether all versions of a ruleset are, and at most one of them is
  active.
-/

namespace Rulebook

namespace Version

/-- Whether an entry may stand in a version behind entries with some rule versions and
priorities, and the priority that comes to those. -/
def checkEntry (v : Version) (ruleVersions : List String) (priorities : List Int64)
    (e : Entry) : Except RuleError (List Int64) := do
  if e.archived then throw (.unacceptable .archivedRule)
  if !v.isDraft && e.ruleStatus == some .draft then throw (.unacceptable .draftRuleVersion)
  if ruleVersions.contains e.ruleVersionId then throw (.conflict .duplicateRuleVersion)
  match v.mode, e.priority with
  -- In a parallel version a priority is not looked at.
  | .parallel, _ => return priorities
  | .sequential, none => throw (.unacceptable .priorityRequired)
  | .sequential, some p =>
    if priorities.contains p then throw (.conflict .priorityTaken)
    return p :: priorities

/-- Whether entries may stand in a version behind entries with some rule versions and
priorities. -/
def checkEntries (v : Version) : List String → List Int64 → List Entry → Except RuleError Unit
  | _, _, [] => .ok ()
  | ruleVersions, priorities, e :: es => do
    let priorities ← v.checkEntry ruleVersions priorities e
    checkEntries v (e.ruleVersionId :: ruleVersions) priorities es

/-- **Whether a version is as the edits keep it.** -/
def check (v : Version) : Except RuleError Unit := do
  requirePrecedence v.mode v.precedence
  v.checkEntries [] [] v.entries

end Version

namespace Ruleset

/-- Whether versions belong to the ruleset with an id and are as the edits keep them. -/
def checkVersions (id : String) : List Version → Except RuleError Unit
  | [] => .ok ()
  | v :: vs => do
    if v.rulesetId != id then throw (.unacceptable .foreignVersion)
    v.check
    checkVersions id vs

/-- How many versions are active. -/
def activeCount (s : Ruleset) : Nat := s.versions.countP fun v => v.status == .active

/-- **Whether a ruleset is as the edits keep it.** -/
def check (s : Ruleset) : Except RuleError Unit := do
  checkVersions s.id s.versions
  if 1 < s.activeCount then
    throw (.conflict .severalActive)

end Ruleset

end Rulebook
