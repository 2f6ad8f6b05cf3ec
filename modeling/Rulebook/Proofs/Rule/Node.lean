import Rulebook.Proofs.Json.OrderFree
import Rulebook.Rule.Decode

/-!
# How nodes are decoded

A node is decoded in two steps: the field that tells its kind is taken out, wherever it stands, and
the rest is read as a record of the kind. The top node of a rule is decoded while its document is
read and the others after it, but the steps are the same, so they are described once, for any way
to **enter** the values of a node.

* `Rulebook.Rule.ofMembers_eq_ok_iff`, `Rulebook.Rule.ofItems_eq_ok_iff` – **which node members and
  items make**;
* `Rulebook.Rule.read_group_eq_ok_iff`, `Rulebook.Rule.read_not_eq_ok_iff`,
  `Rulebook.Rule.read_condition_eq_ok_iff` – which fields the nodes of each kind have.
-/

namespace Rulebook

namespace Rule

/-! ### Values below a node -/

theorem partItems_eq_map (items : List Json) : partItems items = items.map part := by
  induction items with
  | nil => rfl
  | cons j items ih => rw [partItems, ih, List.map_cons]

theorem partMembers_eq_map (members : List (String × Json)) :
    partMembers members = members.map (Prod.map some part) := by
  induction members with
  | nil => rfl
  | cons m members ih => obtain ⟨name, j⟩ := m; rw [partMembers, ih, List.map_cons]; rfl

@[simp] theorem json_part (j : Json) : (part j).json = j := by
  cases j <;> rfl

theorem rule_part_object (members : List (String × Json)) :
    (part (.object members)).rule =
      ofMembers innerKind .ok true (members.map (Prod.map some part)) := by
  rw [← partMembers_eq_map]
  rfl

theorem rule_part_array (items : List Json) :
    (part (.array items)).rule = ofItems innerKind .ok true (items.map part) := by
  rw [← partItems_eq_map]
  rfl

theorem decode_object (members : List (String × Json)) :
    decode (.ofJson (.object members)) =
      ofMembers topKind hold true (members.map (Prod.map some Document.ofJson)) := by
  rw [← Document.ofMembers_eq_map]
  rfl

theorem decode_array (items : List Json) :
    decode (.ofJson (.array items)) = ofItems topKind hold true (items.map Document.ofJson) := by
  rw [← Document.ofItems_eq_map]
  rfl

theorem hold_ofJson (j : Json) : hold (.ofJson j) = .ok (part j) := by
  rw [hold, Decode.whole, Document.value?_ofJson]

/-- The rules that an array lists are those of its items. -/
theorem rules_part_array_eq_ok_iff {items : List Json} {rs : List Rule} :
    (part (.array items)).rules = .ok rs ↔
      List.Forall₂ (fun j r => (part j).rule = .ok r) items rs := by
  have hrules : (part (.array items)).rules = (partItems items).mapM Part.rule := rfl
  rw [hrules, partItems_eq_map, Decode.mapM_eq_ok_iff, List.forall₂_map_left_iff]

/-! ### The kind and the rest -/

/-- The members that do not tell the kind. -/
def fieldMembers (members : List (String × Json)) : List (String × Json) :=
  members.filter fun m => m.1 ≠ kindField

section Nodes

variable {δ : Type} {kindOf : δ → Decoded NodeKind} {hold : δ → Decoded Part} {enter : Json → δ}
  {members : List (String × Json)} {items : List Json} {r : Rule}

/-- A member with another name than that of the kind is put to the rest. -/
theorem splitMembers_cons_eq_ok_iff (hhold : ∀ j, hold (enter j) = .ok (part j)) {name : String}
    (hname : name ≠ kindField) {j : Json} {ms : List (Option String × δ)} {kind : Option NodeKind}
    {k : NodeKind} {ps : List (Option String × Part)} :
    splitMembers kindOf hold true kind ((some name, enter j) :: ms) = .ok (k, ps) ↔
      ∃ rest, splitMembers kindOf hold true kind ms = .ok (k, rest) ∧
        (some name, part j) :: rest = ps := by
  have hstep : splitMembers kindOf hold true kind ((some name, enter j) :: ms) =
      splitMembers kindOf hold true kind ms >>= fun p =>
        .ok (p.1, (some name, part j) :: p.2) := by
    rw [splitMembers.eq_def]
    simp only [if_neg hname, hhold]
    rfl
  rw [hstep, bind_eq_ok_iff]
  constructor
  · rintro ⟨⟨k', rest⟩, hrest, heq⟩
    cases heq
    exact ⟨rest, hrest, rfl⟩
  · rintro ⟨rest, hrest, rfl⟩
    exact ⟨_, hrest, rfl⟩

/-- Once the kind is known it must not be told again. -/
theorem splitMembers_some_eq_ok_iff (hhold : ∀ j, hold (enter j) = .ok (part j))
    {kind k : NodeKind} {ps : List (Option String × Part)} :
    splitMembers kindOf hold true (some kind) (members.map (Prod.map some enter)) = .ok (k, ps) ↔
      valuesOf kindField members = [] ∧ kind = k ∧
        (fieldMembers members).map (Prod.map some part) = ps := by
  induction members generalizing ps with
  | nil => simp [splitMembers, fieldMembers]
  | cons m members ih =>
    obtain ⟨name, j⟩ := m
    by_cases hname : name = kindField
    · simp [splitMembers, hname]
    · have hrest : fieldMembers ((name, j) :: members) = (name, j) :: fieldMembers members := by
        simp [fieldMembers, hname]
      rw [List.map_cons, Prod.map_apply, splitMembers_cons_eq_ok_iff hhold hname,
        valuesOf_cons_of_ne hname, hrest]
      simp [ih, and_assoc]

/-- The kind is told once. -/
theorem splitMembers_none_eq_ok_iff (hhold : ∀ j, hold (enter j) = .ok (part j))
    {k : NodeKind} {ps : List (Option String × Part)} :
    splitMembers kindOf hold true none (members.map (Prod.map some enter)) = .ok (k, ps) ↔
      (∃ j, valuesOf kindField members = [j] ∧ kindOf (enter j) = .ok k) ∧
        (fieldMembers members).map (Prod.map some part) = ps := by
  induction members generalizing ps with
  | nil => simp [splitMembers]
  | cons m members ih =>
    obtain ⟨name, j⟩ := m
    by_cases hname : name = kindField
    · subst hname
      have hrest : fieldMembers ((kindField, j) :: members) = fieldMembers members := by
        simp [fieldMembers]
      rw [List.map_cons, Prod.map_apply, splitMembers, if_pos rfl, bind_eq_ok_iff,
        valuesOf_cons_self, hrest]
      simp only [splitMembers_some_eq_ok_iff hhold]
      constructor
      · rintro ⟨k', hk, hvalues, rfl, hps⟩
        exact ⟨⟨j, by rw [hvalues], hk⟩, hps⟩
      · rintro ⟨⟨j', hvalues, hk⟩, hps⟩
        obtain ⟨rfl, hnone⟩ := List.cons.inj hvalues
        exact ⟨k, hk, hnone, rfl, hps⟩
    · have hrest : fieldMembers ((name, j) :: members) = (name, j) :: fieldMembers members := by
        simp [fieldMembers, hname]
      rw [List.map_cons, Prod.map_apply, splitMembers_cons_eq_ok_iff hhold hname,
        valuesOf_cons_of_ne hname, hrest]
      simp [ih, and_assoc]

/-- **Which node members make**: its kind is told by the one member for it, and the others make a
node of the kind. -/
theorem ofMembers_eq_ok_iff (hhold : ∀ j, hold (enter j) = .ok (part j)) :
    ofMembers kindOf hold true (members.map (Prod.map some enter)) = .ok r ↔
      ∃ k j, valuesOf kindField members = [j] ∧ kindOf (enter j) = .ok k ∧
        ofOutline k (.members ((fieldMembers members).map (Prod.map some part)) true) = .ok r := by
  rw [ofMembers, bind_eq_ok_iff]
  constructor
  · rintro ⟨⟨k, ps⟩, hsplit, hnode⟩
    obtain ⟨⟨j, hj, hk⟩, rfl⟩ := (splitMembers_none_eq_ok_iff hhold).1 hsplit
    exact ⟨k, j, hj, hk, hnode⟩
  · rintro ⟨k, j, hj, hk, hnode⟩
    exact ⟨_, (splitMembers_none_eq_ok_iff hhold).2 ⟨⟨j, hj, hk⟩, rfl⟩, hnode⟩

/-- **Which node items make**: its kind is told by the first, and the others make a node of the
kind. -/
theorem ofItems_eq_ok_iff (hhold : ∀ j, hold (enter j) = .ok (part j)) :
    ofItems kindOf hold true (items.map enter) = .ok r ↔
      ∃ k j rest, items = j :: rest ∧ kindOf (enter j) = .ok k ∧
        ofOutline k (.items (rest.map part) true) = .ok r := by
  have hparts : ∀ rest : List Json, (rest.map enter).mapM hold = .ok (rest.map part) := by
    intro rest
    rw [Decode.mapM_eq_ok_iff, List.forall₂_map_left_iff, List.forall₂_map_right_iff,
      List.forall₂_same]
    exact fun j _ => hhold j
  rcases items with _ | ⟨j, rest⟩
  · simp [ofItems, splitItems, bind, Except.bind]
  · cases hk : kindOf (enter j) with
    | error e => simp [ofItems, splitItems, hk, bind, Except.bind]
    | ok k => simp [ofItems, splitItems, hk, hparts, bind, Except.bind, pure, Except.pure]

end Nodes

/-! ### The fields of each kind -/

theorem plain_form (kind : NodeKind) : Form.Plain (form kind).names := by
  rcases kind with (- | -) | - | - <;> decide

/-- No field has the name of the one that tells the kind. -/
theorem kindField_not_mem_fieldNames (kind : NodeKind) :
    kindField ∉ Form.fieldNames (form kind).names := by
  rcases kind with (- | -) | - | - <;> decide

section Fields

variable {s : Slots Part} {r : Rule}

theorem read_group_eq_ok_iff {c : Connective} :
    (form (.group c)).read s = .ok r ↔
      ∃ p children, s.part? "children" = some p ∧ p.rules = .ok children ∧
        .group c children = r := by
  rw [form, Form.read_map_eq_ok_iff]
  simp only [Form.read_required_eq_ok_iff]
  constructor
  · rintro ⟨children, ⟨p, hp, hrules⟩, rfl⟩
    exact ⟨p, children, hp, hrules, rfl⟩
  · rintro ⟨p, children, hp, hrules, rfl⟩
    exact ⟨children, ⟨p, hp, hrules⟩, rfl⟩

theorem read_not_eq_ok_iff :
    (form .not).read s = .ok r ↔
      ∃ p child, s.part? "child" = some p ∧ p.rule = .ok child ∧ .not child = r := by
  rw [form, Form.read_map_eq_ok_iff]
  simp only [Form.read_required_eq_ok_iff]
  constructor
  · rintro ⟨child, ⟨p, hp, hrule⟩, rfl⟩
    exact ⟨p, child, hp, hrule, rfl⟩
  · rintro ⟨p, child, hp, hrule, rfl⟩
    exact ⟨child, ⟨p, hp, hrule⟩, rfl⟩

theorem read_condition_eq_ok_iff :
    (form .condition).read s = .ok r ↔
      ∃ c : Condition, .condition c = r ∧
        (∃ p, s.part? "operator" = some p ∧
          Decode.nameIn Operator.table p.json = .ok c.operator) ∧
        (∃ p, s.part? "fieldKey" = some p ∧ Decode.stringIn p.json = .ok c.fieldKey) ∧
        ((∃ p, s.part? "value" = some p ∧ Operand.optionOfJson p.json = .ok c.value) ∨
          (s.part? "value" = none ∧ c.value = none)) := by
  rw [form, Form.read_map_eq_ok_iff, conditionForm]
  simp only [Form.read_seq_eq_ok_iff, Form.read_map_eq_ok_iff, Form.read_required_eq_ok_iff,
    Form.read_defaulted_eq_ok_iff]
  constructor
  · rintro ⟨_, ⟨_, value, ⟨_, key, ⟨op, hop, rfl⟩, hkey, rfl⟩, hvalue, rfl⟩, rfl⟩
    exact ⟨⟨op, key, value⟩, rfl, hop, hkey, by simpa [eq_comm] using hvalue⟩
  · rintro ⟨⟨op, key, value⟩, rfl, hop, hkey, hvalue⟩
    exact ⟨_, ⟨_, value, ⟨_, key, ⟨op, hop, rfl⟩, hkey, rfl⟩, by simpa [eq_comm] using hvalue, rfl⟩,
      rfl⟩

end Fields

end Rule

end Rulebook
