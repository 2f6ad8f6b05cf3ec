import Rulebook.Json.Value
import Rulebook.Keyed

/-!
# Opaque values

Some parts of a record are not looked into: they are kept as they are and written again.
What is kept of an object is what it maps each name to, so the members are put in the
order of their names, and of members with the same name the last is kept.

* `Rulebook.Json.canonical` – a value so ordered, at every depth;
* `Rulebook.Json.Canonical` – the condition of being so ordered;
* `Rulebook.Opaque` – a value that is.
-/

namespace Rulebook

namespace Json

mutual

/-- **A value with the members of each object in order.** -/
def canonical : Json → Json
  | .array items => .array (canonicalItems items)
  | .object members => .object (Keyed.gather Prod.fst (canonicalMembers members))
  | .null => .null
  | .bool b => .bool b
  | .integer i => .integer i
  | .real x => .real x
  | .string s => .string s

/-- The items of an array, each with its members in order. -/
def canonicalItems : List Json → List Json
  | [] => []
  | j :: js => canonical j :: canonicalItems js

/-- The members of an object, in their own order but each in order inside. -/
def canonicalMembers : List (String × Json) → List (String × Json)
  | [] => []
  | (name, j) :: ms => (name, canonical j) :: canonicalMembers ms

end

mutual

/-- **The members of each object go up strictly** by name. -/
def Canonical : Json → Prop
  | .array items => CanonicalItems items
  | .object members => Keyed.Ascending Prod.fst members ∧ CanonicalMembers members
  | _ => True

/-- Each item is canonical. -/
def CanonicalItems : List Json → Prop
  | [] => True
  | j :: js => Canonical j ∧ CanonicalItems js

/-- The value of each member is canonical. -/
def CanonicalMembers : List (String × Json) → Prop
  | [] => True
  | (_, j) :: ms => Canonical j ∧ CanonicalMembers ms

end

theorem canonicalMembers_iff {ms : List (String × Json)} :
    CanonicalMembers ms ↔ ∀ m ∈ ms, m.2.Canonical := by
  induction ms with
  | nil => simp [CanonicalMembers]
  | cons m ms ih => obtain ⟨name, j⟩ := m; simp [CanonicalMembers, ih]

/-- What is gathered comes from the list it is gathered from. -/
theorem CanonicalMembers.gather {ms : List (String × Json)} (h : CanonicalMembers ms) :
    CanonicalMembers (Keyed.gather Prod.fst ms) := by
  have key : ∀ (items xs : List (String × Json)), CanonicalMembers xs → CanonicalMembers items →
      CanonicalMembers (Keyed.extend Prod.fst xs items) := by
    intro items
    induction items with
    | nil => exact fun xs hxs _ => hxs
    | cons m items ih =>
      intro xs hxs hitems
      obtain ⟨name, j⟩ := m
      refine ih _ (canonicalMembers_iff.2 fun z hz => ?_) hitems.2
      rcases Keyed.mem_of_mem_put hz with rfl | hz
      · exact hitems.1
      · exact canonicalMembers_iff.1 hxs z hz
  exact key ms [] trivial h

mutual

theorem canonical_canonical : (j : Json) → j.canonical.Canonical
  | .array items => canonicalItems_canonical items
  | .object members =>
    ⟨Keyed.ascending_gather _, (canonicalMembers_canonical members).gather⟩
  | .null | .bool _ | .integer _ | .real _ | .string _ => trivial

theorem canonicalItems_canonical : (js : List Json) → CanonicalItems (canonicalItems js)
  | [] => trivial
  | j :: js => ⟨canonical_canonical j, canonicalItems_canonical js⟩

theorem canonicalMembers_canonical :
    (ms : List (String × Json)) → CanonicalMembers (canonicalMembers ms)
  | [] => trivial
  | (_, j) :: ms => ⟨canonical_canonical j, canonicalMembers_canonical ms⟩

end

mutual

theorem Canonical.canonical_eq : (j : Json) → j.Canonical → j.canonical = j
  | .array items, h => congrArg Json.array (CanonicalItems.canonicalItems_eq items h)
  | .object members, h => by
    have hm := CanonicalMembers.canonicalMembers_eq members h.2
    simp only [canonical, hm, Keyed.gather_of_ascending h.1]
  | .null, _ | .bool _, _ | .integer _, _ | .real _, _ | .string _, _ => rfl

theorem CanonicalItems.canonicalItems_eq :
    (js : List Json) → CanonicalItems js → canonicalItems js = js
  | [], _ => rfl
  | j :: js, h => by
    rw [canonicalItems, Canonical.canonical_eq j h.1, CanonicalItems.canonicalItems_eq js h.2]

theorem CanonicalMembers.canonicalMembers_eq :
    (ms : List (String × Json)) → CanonicalMembers ms → canonicalMembers ms = ms
  | [], _ => rfl
  | (name, j) :: ms, h => by
    rw [canonicalMembers, Canonical.canonical_eq j h.1,
      CanonicalMembers.canonicalMembers_eq ms h.2]

end

end Json

/-- A value that is kept without being looked into. -/
structure Opaque where
  /-- The value. -/
  json : Json
  /-- The members of each object go up strictly. -/
  canonical : json.Canonical
deriving Repr

namespace Opaque

/-- What is kept of a value. -/
def ofJson (j : Json) : Opaque := ⟨j.canonical, j.canonical_canonical⟩

/-- Keeping what was kept changes nothing. -/
@[simp] theorem ofJson_json (o : Opaque) : ofJson o.json = o := by
  obtain ⟨j, h⟩ := o
  simp [ofJson, Json.Canonical.canonical_eq j h]

@[ext] theorem ext {a b : Opaque} (h : a.json = b.json) : a = b := by
  cases a; cases b; congr

/-- Whether the value is `null`. -/
def isNull (o : Opaque) : Bool :=
  match o.json with
  | .null => true
  | _ => false

end Opaque

end Rulebook
