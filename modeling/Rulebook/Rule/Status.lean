/-!
# The status of a rule version

A version of a rule is a draft until it is approved.
-/

namespace Rulebook

/-- The status of a version of a rule. -/
inductive RuleStatus where
  /-- It may still be edited. -/
  | draft
  /-- It has been reviewed. -/
  | approved
deriving DecidableEq, Repr

namespace RuleStatus

/-- The name of a status. -/
def name : RuleStatus → String
  | .draft => "DRAFT"
  | .approved => "APPROVED"

/-- The statuses by their names. -/
def table : List (String × RuleStatus) := [.draft, .approved].map fun s => (s.name, s)

end RuleStatus

end Rulebook
