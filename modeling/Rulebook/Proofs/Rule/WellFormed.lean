import Rulebook.Proofs.Catalog.LastDefinition
import Rulebook.Rule.Check
import Rulebook.Rule.Describe

/-!
# Well-formed rules

Which rules go with a catalog is said here without a checker: by what a value of a type is, by
the payload that an operator wants, and by what each node of the tree has to bring. The checker
of `Rulebook.Rule.check` accepts exactly the **well-formed** rules. When it refuses a rule, it
names the fault of the first node that has one, where a node comes before its children and the
children come in their order.

Everything about the order rests on one fact: the checker goes through the nodes in that order and
asks of each what it has to bring itself, `Rulebook.Rule.check_eq_forM`.

* `Rulebook.Rule.WellFormed` – the well-formed rules;
* `Rulebook.Rule.nodes` – the nodes of a tree, in order;
* `Rulebook.Rule.Sound`, `Rulebook.Rule.Fault` – what a node has to bring itself, and what is
  wrong with one that does not;
* `Rulebook.Rule.check_iff_wellFormed` – the checker against the definition.
-/

namespace Rulebook

/-! ### Values and payloads -/

/-- **The values of a type**: numbers, truth values, and texts for all other types. -/
inductive Scalar.IsOf : FieldType → Scalar → Prop
  /-- A number is a value of the type of numbers. -/
  | number (x : Double) : IsOf .number (.number x)
  /-- A truth value is a value of the type of truth values. -/
  | boolean (b : Bool) : IsOf .boolean (.bool b)
  /-- A text is a value of the types that are neither. -/
  | text {type : FieldType} (s : String) (hnumber : type ≠ .number) (hboolean : type ≠ .boolean) :
    IsOf type (.text s)

theorem Scalar.fits_iff_isOf {s : Scalar} {type : FieldType} :
    s.fits type = true ↔ s.IsOf type := by
  constructor
  · intro h
    cases type <;> cases s <;> first
      | exact .number _
      | exact .boolean _
      | exact .text _ (by decide) (by decide)
      | exact absurd h Bool.false_ne_true
  · rintro (x | b | ⟨s, hnumber, hboolean⟩)
    · rfl
    · rfl
    · cases type <;> first | rfl | contradiction

/-- The items of a list are texts, as are the values of the type of lists. -/
theorem Scalar.isOf_valueType {s : Scalar} {type : FieldType} :
    s.IsOf type.valueType ↔ s.IsOf type := by
  by_cases hlist : type = .list
  · subst hlist
    rw [← fits_iff_isOf, ← fits_iff_isOf]
    rfl
  · have hvalue : type.valueType = type := by cases type <;> first | rfl | contradiction
    rw [hvalue]

/-- **The payload that an operator wants**, by the operators. -/
inductive Operator.Wants : Operator → Option Operand → Prop
  /-- The tests for absence and emptiness have no payload. -/
  | nothing {op : Operator} (h : op ∈ [.isNull, .isNotNull, .isEmpty]) : Wants op none
  /-- A range has two ends. -/
  | pair {op : Operator} (h : op ∈ [.between, .notBetween]) (low high : Scalar) :
    Wants op (some (.list [low, high]))
  /-- The tests for membership have a list with a value in it. -/
  | several {op : Operator} (h : op ∈ [.oneOf, .notOneOf, .memberOf, .notMemberOf])
    (first : Scalar) (rest : List Scalar) : Wants op (some (.list (first :: rest)))
  /-- All others compare with a single value. -/
  | single {op : Operator}
    (h : op ∉ [.isNull, .isNotNull, .isEmpty, .between, .notBetween, .oneOf, .notOneOf, .memberOf,
      .notMemberOf]) (s : Scalar) : Wants op (some (.scalar s))

/-- The values of the payload of a condition. -/
def Condition.values (c : Condition) : List Scalar := (c.value.map Operand.items).getD []

namespace Operator

variable {op : Operator} {value : Option Operand}

theorem payload_eq_nothing : op.payload = .nothing ↔ op ∈ [isNull, isNotNull, isEmpty] := by
  cases op <;> decide

theorem payload_eq_pair : op.payload = .pair ↔ op ∈ [between, notBetween] := by
  cases op <;> decide

theorem payload_eq_several :
    op.payload = .several ↔ op ∈ [oneOf, notOneOf, memberOf, notMemberOf] := by
  cases op <;> decide

theorem payload_eq_single :
    op.payload = .single ↔ op ∉ [isNull, isNotNull, isEmpty, between, notBetween, oneOf, notOneOf,
      memberOf, notMemberOf] := by
  cases op <;> decide

/-- The same, by the shape of the payload. -/
theorem wants_iff :
    op.Wants value ↔ match op.payload, value with
      | .nothing, none => True
      | .pair, some (.list [_, _]) => True
      | .several, some (.list (_ :: _)) => True
      | .single, some (.scalar _) => True
      | _, _ => False := by
  constructor
  · rintro (h | ⟨h, low, high⟩ | ⟨h, first, rest⟩ | ⟨h, s⟩)
    · rw [payload_eq_nothing.2 h]; trivial
    · rw [payload_eq_pair.2 h]; trivial
    · rw [payload_eq_several.2 h]; trivial
    · rw [payload_eq_single.2 h]; trivial
  · intro h
    split at h
    · next hp => exact .nothing (payload_eq_nothing.1 hp)
    · next hp => exact .pair (payload_eq_pair.1 hp) _ _
    · next hp => exact .several (payload_eq_several.1 hp) _ _
    · next hp => exact .single (payload_eq_single.1 hp) _
    · contradiction

/-- A payload that an operator wants has one of four shapes. -/
theorem Wants.shape (h : op.Wants value) :
    (op.payload = .nothing ∧ value = none) ∨
      (op.payload = .single ∧ ∃ s, value = some (.scalar s)) ∨
      (op.payload = .pair ∧ ∃ low high, value = some (.list [low, high])) ∨
      (op.payload = .several ∧ ∃ first rest, value = some (.list (first :: rest))) := by
  cases h with
  | nothing h => exact Or.inl ⟨payload_eq_nothing.2 h, rfl⟩
  | single h s => exact Or.inr (Or.inl ⟨payload_eq_single.2 h, s, rfl⟩)
  | pair h low high => exact Or.inr (Or.inr (Or.inl ⟨payload_eq_pair.2 h, low, high, rfl⟩))
  | several h first rest =>
    exact Or.inr (Or.inr (Or.inr ⟨payload_eq_several.2 h, first, rest, rfl⟩))

/-- A type that allows an operator on texts is the type of texts or the one of lists. -/
theorem text_of_allowed {type : FieldType} (hallowed : op ∈ type.operators) :
    (op.isText = false ∨ type = .string) ∨ type = .list := by
  cases type <;> cases op <;> first | decide | exact absurd hallowed (by decide)

end Operator

/-! ### Conditions -/

/-- **A condition that goes with a catalog**: its key is that of a field, the type of the field
allows the operator, and the payload is what the operator wants, with values of the type. -/
structure Condition.WellFormed (catalog : Catalog) (c : Condition) : Prop where
  /-- The key is not empty. -/
  named : c.fieldKey ≠ ""
  /-- The field goes with the rest of the condition. -/
  typed : ∃ f ∈ catalog.fields, f.key = c.fieldKey ∧ c.operator ∈ f.type.operators ∧
    c.operator.Wants c.value ∧ ∀ s ∈ c.values, s.IsOf f.type

/-- The error for a payload that is not what the operator wants. -/
def Operator.shapeError (op : Operator) : RuleError :=
  match op.payload with
  | .nothing => .unexpectedValue op
  | .pair => .rangeRequired op
  | .several => .listRequired op
  | .single => .scalarRequired op

/-- The error for a payload with a value that is not of the type of the field. -/
def Condition.valueError (c : Condition) (type : FieldType) : RuleError :=
  match c.operator.payload with
  | .several => .listType c.fieldKey
  | .pair => .rangeType type
  | _ => .scalarType type

/-- What is wrong with the use that a condition makes of a field of some type. -/
inductive Condition.Misuse (type : FieldType) (c : Condition) : RuleError → Prop
  /-- The type does not allow the operator. -/
  | operator (h : c.operator ∉ type.operators) : Misuse type c (.operatorNotAllowed c.operator type)
  /-- The payload is not what the operator wants. -/
  | shape (hallowed : c.operator ∈ type.operators) (h : ¬c.operator.Wants c.value) :
    Misuse type c c.operator.shapeError
  /-- A value of the payload is not of the type. -/
  | value (hallowed : c.operator ∈ type.operators) (hwants : c.operator.Wants c.value)
    (h : ¬∀ s ∈ c.values, s.IsOf type) : Misuse type c (c.valueError type)

/-- **What is wrong with a condition** by itself. -/
inductive Condition.Fault (catalog : Catalog) (c : Condition) : RuleError → Prop
  /-- It names no field. -/
  | unnamed (h : c.fieldKey = "") : Fault catalog c .emptyFieldKey
  /-- The catalog does not have the field. -/
  | unknown (hnamed : c.fieldKey ≠ "") (h : ∀ f ∈ catalog.fields, f.key ≠ c.fieldKey) :
    Fault catalog c (.unknownField c.fieldKey)
  /-- It does not go with the type of the field. -/
  | misuse {e : RuleError} {f : Field} (hnamed : c.fieldKey ≠ "") (hf : f ∈ catalog.fields)
    (hkey : f.key = c.fieldKey) (h : c.Misuse f.type e) : Fault catalog c e

namespace Condition

variable {catalog : Catalog} {c : Condition} {type : FieldType} {e : RuleError}

open Classical in
/-- What is checked of the payload, once the operator is allowed: its shape, then its values. -/
theorem checkPayload_eq (hallowed : c.operator ∈ type.operators) :
    c.checkPayload type =
      if c.operator.Wants c.value then
        if ∀ s ∈ c.values, s.IsOf type then .ok () else .error (c.valueError type)
      else .error c.operator.shapeError := by
  obtain ⟨op, key, value⟩ := c
  simp only [Operator.wants_iff, checkPayload]
  cases hp : op.payload with
  | nothing => cases value <;> simp [hp, ensure, Operator.shapeError, values]
  | pair =>
    rcases value with _ | s | ⟨_ | ⟨low, _ | ⟨high, _ | _⟩⟩⟩ <;>
      simp [hp, ensure, Operator.shapeError, values, valueError, Operand.items,
        Scalar.fits_iff_isOf]
  | several =>
    rcases value with _ | s | ⟨_ | ⟨first, rest⟩⟩ <;>
      simp [hp, ensure, Operator.shapeError, values, valueError, Operand.items,
        Scalar.fits_iff_isOf, Scalar.isOf_valueType]
  | single =>
    rcases value with _ | s | items
    · simp [hp, Operator.shapeError]
    · have htext : (op.isText = false ∨ type = .string) ∨ type = .list :=
        Operator.text_of_allowed hallowed
      simp [hp, htext, ensure, values, valueError, Operand.items, Scalar.fits_iff_isOf,
        Scalar.isOf_valueType, bind, Except.bind]
    · simp [hp, Operator.shapeError]

/-- A condition is checked key first, then the operator, then the payload. -/
theorem check_eq_of_get? {f : Field} (hnamed : c.fieldKey ≠ "")
    (hf : catalog.get? c.fieldKey = some f) :
    c.check catalog =
      if c.operator ∈ f.type.operators then c.checkPayload f.type
      else .error (.operatorNotAllowed c.operator f.type) := by
  have hkey : (!c.fieldKey.isEmpty) = true := by simpa using hnamed
  by_cases hop : c.operator ∈ f.type.operators <;>
    simp [check, ensure, hkey, Catalog.require, hf, hop, bind, Except.bind]

theorem check_eq_of_get?_none (hnamed : c.fieldKey ≠ "") (hf : catalog.get? c.fieldKey = none) :
    c.check catalog = .error (.unknownField c.fieldKey) := by
  have hkey : (!c.fieldKey.isEmpty) = true := by simpa using hnamed
  simp [check, ensure, hkey, Catalog.require, hf, bind, Except.bind]

theorem check_eq_of_unnamed (hnamed : c.fieldKey = "") :
    c.check catalog = .error .emptyFieldKey := by
  simp [check, ensure, hnamed, bind, Except.bind]

/-- What is found out about a condition: it goes with the catalog, or it has the fault that is
reported. -/
theorem check_spec (catalog : Catalog) (c : Condition) :
    (c.check catalog = .ok () ∧ c.WellFormed catalog) ∨
      ∃ e, c.check catalog = .error e ∧ c.Fault catalog e ∧ ¬c.WellFormed catalog := by
  by_cases hnamed : c.fieldKey = ""
  · exact Or.inr ⟨_, check_eq_of_unnamed hnamed, .unnamed hnamed, fun h => h.named hnamed⟩
  cases hf : catalog.get? c.fieldKey with
  | none =>
    have hall := Catalog.get?_eq_none_iff.1 hf
    refine Or.inr ⟨_, check_eq_of_get?_none hnamed hf, .unknown hnamed hall, fun h => ?_⟩
    obtain ⟨f, hmem, hkey, -⟩ := h.typed
    exact hall f hmem hkey
  | some f =>
    obtain ⟨hmem, hkey⟩ := Catalog.get?_eq_some_iff.1 hf
    -- The catalog has one field with the key, so being well-formed is about this field.
    have honly : c.WellFormed catalog → c.operator ∈ f.type.operators ∧
        c.operator.Wants c.value ∧ ∀ s ∈ c.values, s.IsOf f.type := by
      rintro ⟨-, g, hg, hgkey, htyped⟩
      have hgf : g = f := Option.some.inj ((Catalog.get?_eq_some_iff.2 ⟨hg, hgkey⟩).symm.trans hf)
      exact hgf ▸ htyped
    rw [check_eq_of_get? hnamed hf]
    by_cases hop : c.operator ∈ f.type.operators
    · rw [if_pos hop, checkPayload_eq hop]
      by_cases hwants : c.operator.Wants c.value
      · by_cases hvalues : ∀ s ∈ c.values, s.IsOf f.type
        · rw [if_pos hwants, if_pos hvalues]
          exact Or.inl ⟨rfl, hnamed, f, hmem, hkey, hop, hwants, hvalues⟩
        · rw [if_pos hwants, if_neg hvalues]
          exact Or.inr ⟨_, rfl, .misuse hnamed hmem hkey (.value hop hwants hvalues),
            fun h => hvalues (honly h).2.2⟩
      · rw [if_neg hwants]
        exact Or.inr ⟨_, rfl, .misuse hnamed hmem hkey (.shape hop hwants),
          fun h => hwants (honly h).2.1⟩
    · rw [if_neg hop]
      exact Or.inr ⟨_, rfl, .misuse hnamed hmem hkey (.operator hop), fun h => hop (honly h).1⟩

/-- A condition has one fault at most, and none if it goes with the catalog. -/
theorem Fault.check_eq (h : c.Fault catalog e) : c.check catalog = .error e := by
  rcases h with hunnamed | ⟨hnamed, hall⟩ | ⟨hnamed, hmem, hkey, hmisuse⟩
  · exact check_eq_of_unnamed hunnamed
  · exact check_eq_of_get?_none hnamed (Catalog.get?_eq_none_iff.2 hall)
  · rw [check_eq_of_get? hnamed (Catalog.get?_eq_some_iff.2 ⟨hmem, hkey⟩)]
    rcases hmisuse with hop | ⟨hop, hwants⟩ | ⟨hop, hwants, hvalues⟩
    · rw [if_neg hop]
    · rw [if_pos hop, checkPayload_eq hop, if_neg hwants]
    · rw [if_pos hop, checkPayload_eq hop, if_pos hwants, if_neg hvalues]

theorem check_eq_ok_iff : c.check catalog = .ok () ↔ c.WellFormed catalog := by
  rcases check_spec catalog c with ⟨hok, h⟩ | ⟨e, herror, -, h⟩
  · simp [hok, h]
  · simp [herror, h]

theorem check_eq_error_iff : c.check catalog = .error e ↔ c.Fault catalog e := by
  constructor
  · intro h
    rcases check_spec catalog c with ⟨hok, -⟩ | ⟨e', herror, hfault, -⟩
    · exact absurd (hok.symm.trans h) nofun
    · cases herror.symm.trans h
      exact hfault
  · exact Fault.check_eq

/-- The errors of a condition, none of which speaks of fields that are no text. -/
theorem Fault.ne_textRequired (h : c.Fault catalog e) (op : Operator) : e ≠ .textRequired op := by
  rintro rfl
  generalize he : RuleError.textRequired op = e at h
  rcases h with - | - | ⟨-, -, -, hmisuse⟩
  · cases he
  · cases he
  · rcases hmisuse with - | - | -
    · cases he
    · unfold Operator.shapeError at he
      split at he <;> cases he
    · unfold valueError at he
      split at he <;> cases he

end Condition

/-! ### Trees -/

namespace Rule

/-- **The well-formed rules**: a group has two children at least, the children of a node are
well-formed, and the conditions go with the catalog. -/
inductive WellFormed (catalog : Catalog) : Rule → Prop
  /-- Several rules combined. -/
  | group (c : Connective) {children : List Rule} (htwo : 2 ≤ children.length)
    (h : ∀ r ∈ children, WellFormed catalog r) : WellFormed catalog (.group c children)
  /-- A rule negated. -/
  | not {child : Rule} (h : WellFormed catalog child) : WellFormed catalog (.not child)
  /-- A condition. -/
  | condition {c : Condition} (h : c.WellFormed catalog) : WellFormed catalog (.condition c)

mutual

/-- **The nodes of a rule**, each before its children, and the children in their order. -/
def nodes : Rule → List Rule
  | .group c children => .group c children :: nodesAll children
  | .not child => .not child :: nodes child
  | .condition c => [.condition c]

/-- The nodes of several rules. -/
def nodesAll : List Rule → List Rule
  | [] => []
  | r :: rs => nodes r ++ nodesAll rs

end

/-- What holds of the nodes of several rules holds of the nodes of each. -/
theorem forall_mem_nodesAll {P : Rule → Prop} {rs : List Rule} :
    (∀ n ∈ nodesAll rs, P n) ↔ ∀ r ∈ rs, ∀ n ∈ r.nodes, P n := by
  induction rs with
  | nil => simp [nodesAll]
  | cons r rs ih => rw [nodesAll, List.forall_mem_append, List.forall_mem_cons, ih]

/-- **What a node has to bring itself**, whatever its children are. -/
def Sound (catalog : Catalog) : Rule → Prop
  | .group _ children => 2 ≤ children.length
  | .not _ => True
  | .condition c => c.WellFormed catalog

/-- **What is wrong with a node** itself. -/
inductive Fault (catalog : Catalog) : Rule → RuleError → Prop
  /-- A group has fewer than two children. -/
  | few (c : Connective) {children : List Rule} (h : children.length < 2) :
    Fault catalog (.group c children) (.tooFewChildren c children.length)
  /-- A condition does not go with the catalog. -/
  | condition {c : Condition} {e : RuleError} (h : c.Fault catalog e) :
    Fault catalog (.condition c) e

/-- The check of a node itself. -/
def checkNode (catalog : Catalog) : Rule → Except RuleError Unit
  | .group c children => ensure (2 ≤ children.length) (.tooFewChildren c children.length)
  | .not _ => .ok ()
  | .condition c => c.check catalog

variable {catalog : Catalog} {r : Rule} {e : RuleError}

theorem checkNode_eq_ok_iff : r.checkNode catalog = .ok () ↔ r.Sound catalog := by
  cases r with
  | group c children =>
    rw [checkNode, ensure, Sound]
    by_cases htwo : 2 ≤ children.length
    · simp only [htwo, decide_true, if_true]
    · simp [htwo]
  | not child => simp [checkNode, Sound]
  | condition c => exact Condition.check_eq_ok_iff

theorem checkNode_eq_error_iff : r.checkNode catalog = .error e ↔ r.Fault catalog e := by
  constructor
  · intro h
    cases r with
    | group c children =>
      rw [checkNode, ensure] at h
      split at h
      · cases h
      · next hfew =>
        cases h
        exact .few c (by simpa using hfew)
    | not child => cases h
    | condition c => exact .condition (Condition.check_eq_error_iff.1 h)
  · rintro (⟨c, hfew⟩ | ⟨hfault⟩)
    · simp [checkNode, ensure, hfew]
    · exact Condition.check_eq_error_iff.2 hfault

mutual

/-- **The checker goes through the nodes in order** and checks each by itself. -/
theorem check_eq_forM (catalog : Catalog) :
    ∀ r : Rule, r.check catalog = forM r.nodes (checkNode catalog)
  | .group c children => by
    rw [check, nodes, List.forM_cons, checkNode, ensure, checkAll_eq_forM catalog children]
    by_cases htwo : children.length < 2
    · simp [htwo, Nat.not_le_of_lt htwo, bind, Except.bind]
    · simp [htwo, Nat.le_of_not_lt htwo, bind, Except.bind]
  | .not child => by
    rw [check, nodes, List.forM_cons, check_eq_forM catalog child]
    rfl
  | .condition c => by
    rw [check, nodes, List.forM_cons, List.forM_nil, checkNode]
    cases c.check catalog <;> rfl

theorem checkAll_eq_forM (catalog : Catalog) :
    ∀ rs : List Rule, checkAll catalog rs = forM (nodesAll rs) (checkNode catalog)
  | [] => rfl
  | r :: rs => by
    rw [checkAll, nodesAll, List.forM_append, check_eq_forM catalog r, checkAll_eq_forM catalog rs]

end

/-- The check of several nodes, one after another, gives the error of the first node with one. -/
theorem forM_checkNode_eq_error_iff {rs : List Rule} :
    forM rs (checkNode catalog) = .error e ↔
      ∃ before node after, rs = before ++ node :: after ∧ (∀ n ∈ before, n.Sound catalog) ∧
        node.Fault catalog e := by
  induction rs with
  | nil => simp [pure, Except.pure]
  | cons r rs ih =>
    rw [List.forM_cons]
    cases hr : r.checkNode catalog with
    | error e' =>
      have hfault : r.Fault catalog e' := checkNode_eq_error_iff.1 hr
      constructor
      · rintro ⟨⟩
        exact ⟨[], r, rs, rfl, nofun, hfault⟩
      · rintro ⟨before, node, after, hsplit, hbefore, hnode⟩
        rcases List.cons_eq_append_iff.1 hsplit with ⟨rfl, hcons⟩ | ⟨before, rfl, -⟩
        · cases hcons
          exact (checkNode_eq_error_iff.2 hnode ▸ hr).symm ▸ rfl
        · have hok := checkNode_eq_ok_iff.2 (hbefore r List.mem_cons_self)
          exact absurd (hok.symm.trans hr) nofun
    | ok u =>
      have hsound : r.Sound catalog := checkNode_eq_ok_iff.1 hr
      change forM rs (checkNode catalog) = .error e ↔ _
      rw [ih]
      constructor
      · rintro ⟨before, node, after, rfl, hbefore, hnode⟩
        exact ⟨r :: before, node, after, rfl, List.forall_mem_cons.2 ⟨hsound, hbefore⟩, hnode⟩
      · rintro ⟨before, node, after, hsplit, hbefore, hnode⟩
        rcases List.cons_eq_append_iff.1 hsplit with ⟨rfl, hcons⟩ | ⟨before, rfl, hrest⟩
        · cases hcons
          exact absurd ((checkNode_eq_error_iff.2 hnode).symm.trans hr) nofun
        · exact ⟨before, node, after, hrest, (List.forall_mem_cons.1 hbefore).2, hnode⟩

theorem forM_checkNode_eq_ok_iff {rs : List Rule} :
    forM rs (checkNode catalog) = .ok () ↔ ∀ n ∈ rs, n.Sound catalog := by
  induction rs with
  | nil => simp [pure, Except.pure]
  | cons r rs ih =>
    rw [List.forM_cons, List.forall_mem_cons, ← ih, ← checkNode_eq_ok_iff]
    cases r.checkNode catalog <;> simp [bind, Except.bind]

mutual

/-- A rule is well-formed if each of its nodes brings what it has to. -/
theorem wellFormed_iff_nodes :
    ∀ r : Rule, r.WellFormed catalog ↔ ∀ n ∈ r.nodes, n.Sound catalog
  | .group c children => by
    rw [nodes, List.forall_mem_cons, ← forall_wellFormed_iff_nodesAll children]
    exact ⟨fun | .group _ htwo h => ⟨htwo, h⟩, fun ⟨htwo, h⟩ => .group c htwo h⟩
  | .not child => by
    rw [nodes, List.forall_mem_cons, ← wellFormed_iff_nodes child]
    exact ⟨fun | .not h => ⟨trivial, h⟩, fun ⟨_, h⟩ => .not h⟩
  | .condition c => by
    rw [nodes, List.forall_mem_singleton]
    exact ⟨fun | .condition h => h, .condition⟩

theorem forall_wellFormed_iff_nodesAll :
    ∀ rs : List Rule, (∀ r ∈ rs, r.WellFormed catalog) ↔ ∀ n ∈ nodesAll rs, n.Sound catalog
  | [] => by simp [nodesAll]
  | r :: rs => by
    rw [nodesAll, List.forall_mem_append, List.forall_mem_cons, wellFormed_iff_nodes r,
      forall_wellFormed_iff_nodesAll rs]

end

theorem check_eq_ok_iff : r.check catalog = .ok () ↔ r.WellFormed catalog := by
  rw [check_eq_forM, forM_checkNode_eq_ok_iff, wellFormed_iff_nodes]

theorem check_eq_error_iff :
    r.check catalog = .error e ↔
      ∃ before node after, r.nodes = before ++ node :: after ∧ (∀ n ∈ before, n.Sound catalog) ∧
        node.Fault catalog e := by
  rw [check_eq_forM, forM_checkNode_eq_error_iff]

theorem Fault.not_sound (h : r.Fault catalog e) : ¬r.Sound catalog := fun hsound =>
  nomatch (checkNode_eq_ok_iff.2 hsound).symm.trans (checkNode_eq_error_iff.2 h)

theorem Fault.ne_textRequired (h : r.Fault catalog e) (op : Operator) : e ≠ .textRequired op := by
  rcases h with - | ⟨hfault⟩
  · nofun
  · exact hfault.ne_textRequired op

/-- **The checker accepts exactly the well-formed rules**, and refuses all others with the fault of
the first node, in order, that does not bring what it has to. It never says that an operator
requires a field of texts. -/
theorem check_iff_wellFormed (catalog : Catalog) (r : Rule) :
    (r.check catalog = .ok () ↔ r.WellFormed catalog) ∧
      (∀ e, r.check catalog = .error e ↔
        ∃ before node after, r.nodes = before ++ node :: after ∧
          (∀ n ∈ before, n.Sound catalog) ∧ ¬node.Sound catalog ∧ node.Fault catalog e) ∧
      ∀ op, r.check catalog ≠ .error (.textRequired op) := by
  refine ⟨check_eq_ok_iff, fun e => ?_, fun op herror => ?_⟩
  · rw [check_eq_error_iff]
    constructor
    · rintro ⟨before, node, after, hsplit, hbefore, hfault⟩
      exact ⟨before, node, after, hsplit, hbefore, hfault.not_sound, hfault⟩
    · rintro ⟨before, node, after, hsplit, hbefore, -, hfault⟩
      exact ⟨before, node, after, hsplit, hbefore, hfault⟩
  · obtain ⟨before, node, after, -, -, hfault⟩ := check_eq_error_iff.1 herror
    exact hfault.ne_textRequired op rfl

end Rule

end Rulebook
