import Rulebook.Json.Text
import Rulebook.Rule.Check
import Rulebook.Rule.Decode

/-!
# Loading rules

* `Rulebook.Rule.parse` – the rule that a text describes;
* `Rulebook.Rule.load` – the same, if it goes with a catalog.
-/

namespace Rulebook.Rule

/-- **The rule that a text describes.** -/
def parse (text : String) : Except RuleError Rule :=
  (Decode.ofText decode text).mapError .malformed

/-- **The rule that a text describes**, if it goes with a catalog. -/
def load (catalog : Catalog) (text : String) : Except RuleError Rule := do
  let r ← parse text
  r.check catalog
  return r

end Rulebook.Rule
