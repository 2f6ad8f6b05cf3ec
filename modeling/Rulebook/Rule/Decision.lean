import Rulebook.Json.Record

/-!
# Decisions

What is decided when a rule holds. Only the action matters here; a decision without one has
an empty action.
-/

namespace Rulebook

/-- What is decided when a rule holds. -/
structure Decision where
  /-- The action that is taken. -/
  action : String
deriving DecidableEq, Repr

namespace Decision

/-- The form of the record of a decision. -/
def form : Form Document Decision := Decision.mk <$> .defaulted "action" Decode.string ""

/-- The decision that a document describes. -/
def decode : Document → Decoded Decision := form.decodeDocument "struct RuleDecision"

end Decision

end Rulebook
