/-!
# Ranges of characters

A property of characters is given by a table of ranges of their numbers, both ends included.

* `Rulebook.Text.inRanges` – whether a number lies in one of the ranges.
-/

namespace Rulebook.Text

/-- Whether a number lies in one of the ranges. -/
def inRanges (ranges : List (Nat × Nat)) (n : Nat) : Bool :=
  ranges.any fun (a, b) => a ≤ n && n ≤ b

end Rulebook.Text
