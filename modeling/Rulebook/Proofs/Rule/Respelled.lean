import Rulebook.Proofs.Rule.Node
import Rulebook.Proofs.Rule.WellFormed
import Rulebook.Rule.Encode

/-!
# Records of rules, spelled in other ways

The JSON form of a rule can be written in many ways that say the same: the members of a node may
stand in any order, and members that nodes of the kind do not know may stand among them. Such a
**respelling** of the form of a rule is decoded to the rule, as is the form itself, if its numbers
are finite. The others have no JSON form.

The members of a node are decoded in two ways, at the top of a rule and below it, so what is shown
by induction is that they make the rule in both, `Rulebook.Rule.Makes`.

* `Rulebook.Rule.FiniteNumbers` – rules whose numbers are finite;
* `Rulebook.Rule.Respelled` – the other ways to write a record;
* `Rulebook.Rule.makes_of_respelled` – **what is decoded from respelled records**.
-/

namespace Rulebook

/-! ### Names -/

/-- **The names of the members that nodes of a kind know.** -/
def NodeKind.fieldNames : NodeKind → List String
  | .group _ => ["nodeType", "children"]
  | .not => ["nodeType", "child"]
  | .condition => ["nodeType", "operator", "fieldKey", "value"]

theorem NodeKind.fieldNames_eq (kind : NodeKind) :
    kind.fieldNames = Rule.kindField :: Form.fieldNames (Rule.form kind).names := by
  cases kind <;> rfl

theorem NodeKind.named_name (kind : NodeKind) : Decode.named table kind.name = .ok kind := by
  rcases kind with (- | -) | - | - <;> rfl

theorem NodeKind.name_injective : Function.Injective name := by
  intro k k' h
  have hnamed := k.named_name
  rw [h, k'.named_name] at hnamed
  exact (Except.ok.inj hnamed).symm

theorem Operator.named_name (op : Operator) : Decode.named table op.name = .ok op := by
  cases op <;> rfl

/-! ### Values -/

/-- A value that is finite if it is a number. -/
def Scalar.Finite (s : Scalar) : Prop := ∀ x, s = .number x → x.isFinite = true

theorem Scalar.ofJson_toJson {s : Scalar} (h : s.Finite) : ofJson s.toJson = .ok s := by
  cases s with
  | bool b => rfl
  | number x => rw [toJson, if_pos (h x rfl)]; rfl
  | text s => rfl

theorem Operand.optionOfJson_toJson {v : Operand} (h : ∀ s ∈ v.items, s.Finite) :
    optionOfJson v.toJson = .ok (some v) := by
  cases v with
  | scalar s =>
    have hs := Scalar.ofJson_toJson (h s (List.mem_singleton.2 rfl))
    have hj : ∀ j, Scalar.ofJson j = .ok s → optionOfJson j = .ok (some (.scalar s)) := by
      intro j hj
      cases j with
      | null => cases hj
      | array items => cases hj
      | _ =>
        rw [optionOfJson, ofJson, hj]
        · rfl
        · simp
        · simp
    exact hj _ hs
  | list items =>
    have hmap : (items.map Scalar.toJson).mapM Scalar.ofJson = .ok items := by
      rw [Decode.mapM_eq_ok_iff, List.forall₂_map_left_iff, List.forall₂_same]
      exact fun s hs => Scalar.ofJson_toJson (h s hs)
    rw [toJson, optionOfJson, ofJson, hmap]
    · rfl
    · exact nofun

theorem Scalar.distinct_toJson (s : Scalar) : s.toJson.Distinct := by
  cases s with
  | bool b => exact .bool b
  | number x =>
    rw [toJson]
    split
    · exact .real x
    · exact .null
  | text s => exact .string s

theorem Operand.distinct_toJson (v : Operand) : v.toJson.Distinct := by
  cases v with
  | scalar s => exact s.distinct_toJson
  | list items =>
    refine .array fun j hj => ?_
    obtain ⟨s, -, rfl⟩ := List.mem_map.1 hj
    exact s.distinct_toJson

namespace Rule

/-! ### The form of a rule -/

theorem toJsons_eq_map (rs : List Rule) : toJsons rs = rs.map toJson := by
  induction rs with
  | nil => rfl
  | cons r rs ih => rw [toJsons, ih, List.map_cons]

mutual

/-- No name comes twice in a record of the form of a rule. -/
theorem distinct_toJson : ∀ r : Rule, r.toJson.Distinct
  | .group c children =>
    .object (by simp) (by simpa using ⟨.string _, .array (distinct_toJsons children)⟩)
  | .not child => .object (by simp) (by simpa using ⟨.string _, distinct_toJson child⟩)
  | .condition ⟨op, key, none⟩ =>
    .object (by simp [Condition.members, Json.optional])
      (by simpa [Condition.members, Json.optional] using ⟨.string _, .string _, .string _⟩)
  | .condition ⟨op, key, some v⟩ =>
    .object (by simp [Condition.members, Json.optional])
      (by simpa [Condition.members, Json.optional] using
        ⟨.string _, .string _, .string _, v.distinct_toJson⟩)

theorem distinct_toJsons : ∀ rs : List Rule, ∀ j ∈ toJsons rs, j.Distinct
  | [] => nofun
  | r :: rs => List.forall_mem_cons.2 ⟨distinct_toJson r, distinct_toJsons rs⟩

end

/-- **All numbers in the rule are finite.** -/
inductive FiniteNumbers : Rule → Prop
  | group {c : Connective} {children : List Rule} (hchildren : ∀ r ∈ children, FiniteNumbers r) :
    FiniteNumbers (.group c children)
  | not {child : Rule} (hchild : FiniteNumbers child) : FiniteNumbers (.not child)
  | condition {c : Condition} (hvalues : ∀ s ∈ c.values, s.Finite) : FiniteNumbers (.condition c)

/-! ### Respelling -/

/-- **The ways to write a record.** -/
inductive Respelled : Json → Json → Prop
  /-- As it was written. -/
  | same (j : Json) : Respelled j j
  /-- With the items of an array written in other ways. -/
  | array {items items' : List Json} (hitems : List.Forall₂ Respelled items items') :
    Respelled (.array items) (.array items')
  /-- With the values of a node written in other ways, other members among them whose names nodes
  of the kind do not know, and all of the members in another order. -/
  | node {kind : NodeKind} {fields fields' added members : List (String × Json)}
    (hnames : fields'.map Prod.fst = fields.map Prod.fst)
    (hvalues : List.Forall₂ Respelled (fields.map Prod.snd) (fields'.map Prod.snd))
    (hadded : ∀ m ∈ added, m.1 ∉ kind.fieldNames)
    (horder : members.Perm (("nodeType", .string kind.name) :: fields' ++ added)) :
    Respelled (nodeJson kind fields) (.object members)

namespace Respelled

variable {j : Json}

theorem eq_of_leaf {i : Json} (h : Respelled i j) (harray : ∀ items, i ≠ .array items)
    (hobject : ∀ members, i ≠ .object members) : j = i := by
  cases h with
  | same => rfl
  | array => exact absurd rfl (harray _)
  | node => exact absurd rfl (hobject _)

theorem array_iff {items : List Json} :
    Respelled (.array items) j ↔
      ∃ items', j = .array items' ∧ List.Forall₂ Respelled items items' := by
  constructor
  · intro h
    generalize hi : Json.array items = i at h
    cases h with
    | same =>
      exact ⟨items, hi.symm, List.forall₂_same.2 fun j _ => .same j⟩
    | array hitems =>
      cases hi
      exact ⟨_, rfl, hitems⟩
    | node => cases hi
  · rintro ⟨items', rfl, hitems⟩
    exact .array hitems

/-- A node is written with its own values, written in other ways, and with members that it does not
know. -/
theorem node_iff {kind : NodeKind} {fields : List (String × Json)} :
    Respelled (nodeJson kind fields) j ↔ ∃ fields' added members, j = .object members ∧
      fields'.map Prod.fst = fields.map Prod.fst ∧
      List.Forall₂ Respelled (fields.map Prod.snd) (fields'.map Prod.snd) ∧
      (∀ m ∈ added, m.1 ∉ kind.fieldNames) ∧
      members.Perm (("nodeType", .string kind.name) :: fields' ++ added) := by
  constructor
  · intro h
    generalize hi : nodeJson kind fields = i at h
    cases h with
    | same =>
      exact ⟨fields, [], _, hi.symm, rfl, List.forall₂_same.2 fun j _ => .same j, nofun, by simp⟩
    | array => cases hi
    | @node kind' fields₀ fields' added members hnames hvalues hadded horder =>
      obtain ⟨hkind, rfl⟩ := List.cons.inj (Json.object.inj hi)
      obtain rfl := NodeKind.name_injective (Json.string.inj (Prod.mk.inj hkind).2)
      exact ⟨fields', added, members, rfl, hnames, hvalues, hadded, horder⟩
  · rintro ⟨fields', added, members, rfl, hnames, hvalues, hadded, horder⟩
    exact .node hnames hvalues hadded horder

/-- What can be written in one way only is written so in a list. -/
theorem eq_of_forall₂ {is js : List Json} (h : List.Forall₂ Respelled is js)
    (hone : ∀ i ∈ is, ∀ j, Respelled i j → j = i) : js = is := by
  induction h with
  | nil => rfl
  | cons hj _ ih =>
    obtain ⟨hi, his⟩ := List.forall_mem_cons.1 hone
    rw [hi _ hj, ih his]

theorem eq_scalar {s : Scalar} (h : Respelled s.toJson j) : j = s.toJson := by
  refine h.eq_of_leaf ?_ ?_ <;> intro i hi <;> cases s with
  | bool b => cases hi
  | number x => rw [Scalar.toJson] at hi; split at hi <;> cases hi
  | text t => cases hi

/-- The payload of a condition can be written in one way only. -/
theorem eq_operand {v : Operand} (h : Respelled v.toJson j) : j = v.toJson := by
  cases v with
  | scalar s => exact h.eq_scalar
  | list items =>
    obtain ⟨items', rfl, hitems⟩ := array_iff.1 h
    have heq : items' = items.map Scalar.toJson := by
      refine eq_of_forall₂ hitems fun i hi j hj => ?_
      obtain ⟨s, -, rfl⟩ := List.mem_map.1 hi
      exact hj.eq_scalar
    rw [heq, Operand.toJson]

end Respelled

/-! ### Decoding what is respelled -/

/-- **Members that make a rule**, however the values of a node are entered. -/
def Makes (members : List (String × Json)) (r : Rule) : Prop :=
  ∀ {δ : Type} (kindOf : δ → Decoded NodeKind) (hold : δ → Decoded Part) (enter : Json → δ),
    (∀ k : NodeKind, kindOf (enter (.string k.name)) = .ok k) →
    (∀ j, hold (enter j) = .ok (part j)) →
    ofMembers kindOf hold true (members.map (Prod.map some enter)) = .ok r

namespace Makes

variable {members : List (String × Json)} {r : Rule}

theorem decode_eq (h : Makes members r) : decode (.ofJson (.object members)) = .ok r := by
  rw [decode_object]
  exact h topKind hold Document.ofJson NodeKind.named_name hold_ofJson

theorem rule_part_eq (h : Makes members r) : (part (.object members)).rule = .ok r := by
  rw [rule_part_object]
  exact h innerKind .ok part NodeKind.named_name fun _ => rfl

/-- **Members make a rule** if they are the members of a node of its kind and others that such a
node does not know, in any order, and the rule is what its fields are read as. -/
theorem of_perm {kind : NodeKind} {fields added : List (String × Json)}
    (horder : members.Perm (((kindField, .string kind.name) :: fields) ++ added))
    (hnames : (((kindField, Json.string kind.name) :: fields).map Prod.fst).Nodup)
    (hadded : ∀ m ∈ added, m.1 ∉ kind.fieldNames)
    (hread : Form.Reads part fields (form kind) r) : Makes members r := by
  intro δ kindOf hold enter hkind hhold
  obtain ⟨hfresh, hnodup⟩ := List.nodup_cons.1 hnames
  have hvalues : ∀ name ∈ kind.fieldNames,
      valuesOf name members = valuesOf name ((kindField, .string kind.name) :: fields) :=
    fun name hname => valuesOf_eq_of_perm_append horder (length_valuesOf_le_one hnames name)
      fun m hm heq => hadded m hm (heq ▸ hname)
  rw [NodeKind.fieldNames_eq] at hvalues
  obtain ⟨hkindValue, hfieldValues⟩ := List.forall_mem_cons.1 hvalues
  -- What is left beside the kind are the fields, under the names that are asked for.
  have hrest : ∀ name ∈ Form.fieldNames (form kind).names,
      valuesOf name (fieldMembers members) = valuesOf name fields := by
    intro name hname
    have hne : kindField ≠ name := fun heq => kindField_not_mem_fieldNames kind (heq ▸ hname)
    rw [fieldMembers, valuesOf_filter_ne hne.symm, hfieldValues name hname,
      valuesOf_cons_of_ne hne]
  have hnone : valuesOf kindField fields = [] :=
    valuesOf_eq_nil fun m hm heq => hfresh (List.mem_map.2 ⟨m, hm, heq⟩)
  rw [ofMembers_eq_ok_iff hhold]
  refine ⟨kind, .string kind.name, by simp [hkindValue, hnone], hkind kind, ?_⟩
  rw [ofOutline, Form.decode_members_eq_ok_iff (plain_form kind)]
  refine ⟨fun name hname => ?_, hread _ fun name hname => ?_⟩
  · rw [hrest name hname]
    exact length_valuesOf_le_one hnodup name
  · rw [Form.part?_memberSlots (plain_form kind) hname, Form.valuesOf_some_map, hrest name hname,
      List.head?_map]

end Makes

section Kinds

variable {j : Json}

/-- A list of rules is decoded from the forms of the rules, each written in some way. -/
theorem rules_part_array_eq_ok {rs : List Rule} {items : List Json}
    (h : ∀ r ∈ rs, ∀ i, Respelled r.toJson i → (part i).rule = .ok r)
    (hitems : List.Forall₂ Respelled (toJsons rs) items) :
    (part (.array items)).rules = .ok rs := by
  rw [toJsons_eq_map, List.forall₂_map_left_iff] at hitems
  rw [rules_part_array_eq_ok_iff]
  exact (forall₂_imp_of_mem hitems h).flip

theorem makes_group {c : Connective} {children : List Rule}
    (h : Respelled (toJson (.group c children)) j)
    (hchildren : ∀ r ∈ children, ∀ i, Respelled r.toJson i → (part i).rule = .ok r) :
    ∃ members, j = .object members ∧ Makes members (.group c children) := by
  obtain ⟨fields, added, members, rfl, hnames, hvalues, hadded, horder⟩ := Respelled.node_iff.1 h
  obtain ⟨⟨name, i⟩, rfl, hname : name = "children"⟩ := List.map_eq_singleton_iff.1 hnames
  subst hname
  obtain ⟨hvalue, -⟩ := List.forall₂_cons.1 hvalues
  obtain ⟨items, rfl, hitems⟩ := Respelled.array_iff.1 hvalue
  have hrules := rules_part_array_eq_ok hchildren hitems
  have hread : Form.Reads part [("children", .array items)] (form (.group c)) (.group c children) :=
    (Form.Reads.required valuesOf_cons_self hrules).map rfl
  exact ⟨members, rfl, Makes.of_perm horder (by simp [kindField]) hadded hread⟩

theorem makes_not {child : Rule} (h : Respelled (toJson (.not child)) j)
    (hchild : ∀ i, Respelled child.toJson i → (part i).rule = .ok child) :
    ∃ members, j = .object members ∧ Makes members (.not child) := by
  obtain ⟨fields, added, members, rfl, hnames, hvalues, hadded, horder⟩ := Respelled.node_iff.1 h
  obtain ⟨⟨name, i⟩, rfl, hname : name = "child"⟩ := List.map_eq_singleton_iff.1 hnames
  subst hname
  obtain ⟨hvalue, -⟩ := List.forall₂_cons.1 hvalues
  have hread : Form.Reads part [("child", i)] (form .not) (.not child) :=
    (Form.Reads.required valuesOf_cons_self (hchild i hvalue)).map rfl
  exact ⟨members, rfl, Makes.of_perm horder (by simp [kindField]) hadded hread⟩

/-- The values of a condition can be written in one way only. -/
theorem eq_values_of_respelled {c : Condition} {js : List Json}
    (h : List.Forall₂ Respelled (c.members.map Prod.snd) js) : js = c.members.map Prod.snd := by
  refine Respelled.eq_of_forall₂ h fun i hi j hj => ?_
  rcases c with ⟨op, key, - | v⟩ <;>
    simp only [Condition.members, Json.optional, Option.map_none, Option.map_some,
      List.append_nil, List.map_append, List.map_cons, List.map_nil, List.mem_append,
      List.mem_cons, List.not_mem_nil, or_false] at hi
  · rcases hi with rfl | rfl <;> exact hj.eq_of_leaf nofun nofun
  · rcases hi with (rfl | rfl) | rfl
    · exact hj.eq_of_leaf nofun nofun
    · exact hj.eq_of_leaf nofun nofun
    · exact hj.eq_operand

theorem reads_members {c : Condition} (hfinite : ∀ s ∈ c.values, s.Finite) :
    Form.Reads part c.members (form .condition) (.condition c) := by
  rcases c with ⟨op, key, value⟩
  have hop : Form.Reads part (Condition.members ⟨op, key, value⟩)
      (.required "operator" fun p => Decode.nameIn Operator.table p.json) op :=
    .required valuesOf_cons_self op.named_name
  have hkey : Form.Reads part (Condition.members ⟨op, key, value⟩)
      (.required "fieldKey" fun p => Decode.stringIn p.json) key :=
    .required (valuesOf_cons_of_ne (by decide) |>.trans valuesOf_cons_self) rfl
  have hvalue : Form.Reads part (Condition.members ⟨op, key, value⟩)
      (.defaulted "value" (fun p => Operand.optionOfJson p.json) none) value := by
    cases value with
    | none => exact .defaulted_of_absent rfl
    | some v =>
      refine .defaulted rfl ?_
      rw [json_part]
      exact Operand.optionOfJson_toJson hfinite
  exact (((hop.map rfl).seq hkey rfl).seq hvalue rfl).map rfl

theorem makes_condition {c : Condition} (h : Respelled (toJson (.condition c)) j)
    (hfinite : ∀ s ∈ c.values, s.Finite) :
    ∃ members, j = .object members ∧ Makes members (.condition c) := by
  obtain ⟨fields, added, members, rfl, hnames, hvalues, hadded, horder⟩ := Respelled.node_iff.1 h
  have hfields : fields = c.members := by
    rw [List.zip_of_prod hnames (eq_values_of_respelled hvalues), ← List.zip_of_prod rfl rfl]
  subst hfields
  have hnodup : (((kindField, Json.string NodeKind.condition.name) :: c.members).map
      Prod.fst).Nodup := by
    rcases c with ⟨op, key, - | v⟩ <;> simp [Condition.members, Json.optional, kindField]
  exact ⟨members, rfl, Makes.of_perm horder hnodup hadded (reads_members hfinite)⟩

end Kinds

/-- **What is decoded from respelled records**: the rule, below the top of another and at the
top. -/
theorem makes_of_respelled {r : Rule} (h : r.FiniteNumbers) :
    ∀ j, Respelled r.toJson j → ∃ members, j = .object members ∧ Makes members r := by
  induction h with
  | group _ ih =>
    intro j hj
    refine makes_group hj fun r hr i hi => ?_
    obtain ⟨members, rfl, hmakes⟩ := ih r hr i hi
    exact hmakes.rule_part_eq
  | not _ ih =>
    intro j hj
    refine makes_not hj fun i hi => ?_
    obtain ⟨members, rfl, hmakes⟩ := ih i hi
    exact hmakes.rule_part_eq
  | condition hvalues => exact fun j hj => makes_condition hj hvalues

theorem decode_of_respelled {r : Rule} (h : r.FiniteNumbers) {j : Json}
    (hj : Respelled r.toJson j) : decode (.ofJson j) = .ok r := by
  obtain ⟨members, rfl, hmakes⟩ := makes_of_respelled h j hj
  exact hmakes.decode_eq

/-- **The form of a rule is decoded to the rule**, however it is written: as it is, or with its
members in any order and others among them. -/
theorem decode_toJson_and_respelled (r : Rule) (h : r.FiniteNumbers) :
    decode (.ofJson r.toJson) = .ok r ∧ ∀ j, Respelled r.toJson j → decode (.ofJson j) = .ok r :=
  ⟨decode_of_respelled h (.same _), fun _ => decode_of_respelled h⟩

/-- A condition with a number. -/
def above : Condition := ⟨.gt, "txn.amount", some (.scalar (.number (.ofInt 5)))⟩

/-- The record of the condition with its members turned round and a note in front. -/
def aboveRespelled : Json :=
  .object [("note", .object []), ("value", .real (.ofInt 5)), ("fieldKey", .string "txn.amount"),
    ("operator", .string "GT"), ("nodeType", .string "CONDITION")]

/-- The same for the negation of the condition. -/
def notAboveRespelled : Json :=
  .object [("note", .null), ("child", aboveRespelled), ("nodeType", .string "NOT")]

theorem respelled_notAbove : Respelled (toJson (.not (.condition above))) notAboveRespelled := by
  have hunknown : ∀ kind : NodeKind, "note" ∉ kind.fieldNames := by
    rintro (c | - | -) <;> simp [NodeKind.fieldNames]
  have habove : Respelled (toJson (.condition above)) aboveRespelled :=
    Respelled.node_iff.2 ⟨above.members, [("note", .object [])], _, rfl, rfl,
      List.forall₂_same.2 fun j _ => .same j, List.forall_mem_singleton.2 (hunknown _),
      List.perm_reverse.1 (.refl _)⟩
  exact Respelled.node_iff.2 ⟨[("child", aboveRespelled)], [("note", .null)], _, rfl, rfl,
    .cons habove .nil, List.forall_mem_singleton.2 (hunknown _), List.perm_reverse.1 (.refl _)⟩

theorem decode_notAboveRespelled :
    FiniteNumbers (.not (.condition above)) ∧
      Respelled (toJson (.not (.condition above))) notAboveRespelled ∧
      decode (.ofJson notAboveRespelled) = .ok (.not (.condition above)) := by
  have hfinite : FiniteNumbers (.not (.condition above)) := by
    refine .not (.condition fun s hs x hx => ?_)
    obtain rfl : s = .number (.ofInt 5) := List.mem_singleton.1 hs
    obtain rfl := Scalar.number.inj hx
    decide
  exact ⟨hfinite, respelled_notAbove,
    (decode_toJson_and_respelled _ hfinite).2 _ respelled_notAbove⟩

end Rule

end Rulebook
