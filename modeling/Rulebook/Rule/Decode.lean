import Rulebook.Json.Record
import Rulebook.Rule.Basic

/-!
# Decoding rules

A node is a record in which the field `nodeType` tells its kind, wherever it stands. So all
of a node is read before any of the other fields is decoded, and below the top node of
a rule everything has been read when it is decoded.

* `Rulebook.Scalar.ofJson`, `Rulebook.Operand.ofJson` – values;
* `Rulebook.Rule.decode` – the rule that a document describes.

Each value inside a rule is turned once into a `Rulebook.Rule.Part`: the value together with
what it is if a node, or a list of nodes, is expected in its place.
-/

namespace Rulebook

/-! ### Values -/

/-- The single value that a JSON value is. -/
def Scalar.ofJson : Json → Decoded Scalar
  | .bool b => .ok (.bool b)
  | .integer i => .ok (.number (.ofInt i))
  | .real x => .ok (.number x)
  | .string s => .ok (.text s)
  | .null | .array _ | .object _ => .error (.noKind "ScalarValue")

/-- What a condition compares with, if it is a JSON value: a single value or a list of
such. -/
def Operand.ofJson (j : Json) : Decoded Operand :=
  match j with
  | .array items =>
    match items.mapM Scalar.ofJson with
    | .ok scalars => .ok (.list scalars)
    | .error _ => .error (.noKind "ConditionValue")
  | j =>
    match Scalar.ofJson j with
    | .ok s => .ok (.scalar s)
    | .error _ => .error (.noKind "ConditionValue")

/-- What a condition compares with; `null` is nothing. -/
def Operand.optionOfJson : Json → Decoded (Option Operand)
  | .null => .ok none
  | j => some <$> Operand.ofJson j

/-! ### Nodes -/

namespace Rule

/-- A value inside a rule. -/
structure Part where
  /-- The value. -/
  json : Json
  /-- The rule that it describes. -/
  rule : Decoded Rule
  /-- The rules that it lists. -/
  rules : Decoded (List Rule)

/-- The form of a condition. -/
def conditionForm : Form Part Condition :=
  Condition.mk <$> .required "operator" (fun p => Decode.nameIn Operator.table p.json)
    <*> .required "fieldKey" (fun p => Decode.stringIn p.json)
    <*> .defaulted "value" (fun p => Operand.optionOfJson p.json) none

/-- The form of a node of a kind. -/
def form : NodeKind → Form Part Rule
  | .group c => Rule.group c <$> .required "children" Part.rules
  | .not => Rule.not <$> .required "child" Part.rule
  | .condition => Rule.condition <$> conditionForm

/-- How messages name a node of a kind. -/
def title : NodeKind → String
  | .group .all => "struct variant RuleNode::And"
  | .group .any => "struct variant RuleNode::Or"
  | .not => "struct variant RuleNode::Not"
  | .condition => "struct Condition"

/-- What is made of a node of a kind. -/
def ofOutline (kind : NodeKind) : Outline Part → Decoded Rule :=
  (form kind).decode (title kind) fun total fields =>
    .wrongLength total (Form.elements fields ++ " in sequence")

/-- How messages name a node of any kind. -/
def anyTitle : String := "internally tagged enum RuleNode"

/-- The field that tells the kind of a node. -/
def kindField : String := "nodeType"

variable {δ : Type}

/-- Takes the field that tells the kind out of the members of a node. It has to occur once. -/
def splitMembers (kindOf : δ → Decoded NodeKind) (hold : δ → Decoded Part) (closed : Bool) :
    Option NodeKind → List (Option String × δ) →
      Decoded (NodeKind × List (Option String × Part))
  | kind, [] =>
    if !closed then .error .malformed
    else
      match kind with
      | some k => .ok (k, [])
      | none => .error (.missingField kindField)
  | _, (none, _) :: _ => .error .malformed
  | kind, (some name, d) :: ms =>
    if name = kindField then
      match kind with
      | some _ => .error (.duplicateField kindField)
      | none => do
        -- A kind that is not known is reported at once, before the rest is read.
        let k ← kindOf d
        splitMembers kindOf hold closed (some k) ms
    else do
      let p ← hold d
      let (k, ps) ← splitMembers kindOf hold closed kind ms
      return (k, (some name, p) :: ps)

/-- Takes the first item, which tells the kind, from the items of a node. -/
def splitItems (kindOf : δ → Decoded NodeKind) (hold : δ → Decoded Part) (closed : Bool) :
    List δ → Decoded (NodeKind × List Part)
  | [] => .error (if closed then .missingField kindField else .malformed)
  | d :: ds => do
    let k ← kindOf d
    let ps ← ds.mapM hold
    if closed then return (k, ps) else throw .malformed

/-- The node that members make. -/
def ofMembers (kindOf : δ → Decoded NodeKind) (hold : δ → Decoded Part) (closed : Bool)
    (ms : List (Option String × δ)) : Decoded Rule := do
  let (k, ps) ← splitMembers kindOf hold closed none ms
  ofOutline k (.members ps true)

/-- The node that items make. -/
def ofItems (kindOf : δ → Decoded NodeKind) (hold : δ → Decoded Part) (closed : Bool)
    (ds : List δ) : Decoded Rule := do
  let (k, ps) ← splitItems kindOf hold closed ds
  ofOutline k (.items ps true)

/-- The kind of a node below the top. It may also be told by its number. -/
def innerKind (p : Part) : Decoded NodeKind :=
  match p.json with
  | .string s => Decode.named NodeKind.table s
  | .integer i =>
    if i < 0 then .error (p.json.mismatch "variant identifier")
    else
      match NodeKind.all[i.toNat]? with
      | some k => .ok k
      | none => .error (.wrongValue (.integer i) "variant index 0 <= i < 4")
  | j => .error (j.mismatch "variant identifier")

mutual

/-- **What a value inside a rule is.** -/
def part : Json → Part
  | .object members =>
    ⟨.object members, ofMembers innerKind .ok true (partMembers members),
      .error (.wrongType .record "a sequence")⟩
  | .array items =>
    ⟨.array items, ofItems innerKind .ok true (partItems items), (partItems items).mapM Part.rule⟩
  | .null => plain .null
  | .bool b => plain (.bool b)
  | .integer i => plain (.integer i)
  | .real x => plain (.real x)
  | .string s => plain (.string s)
where
  /-- A value that is neither a list nor a record is no node and no list of nodes. -/
  plain (j : Json) : Part := ⟨j, .error (j.mismatch anyTitle), .error (j.mismatch "a sequence")⟩

/-- What the items of an array are. -/
def partItems : List Json → List Part
  | [] => []
  | j :: js => part j :: partItems js

/-- What the members of an object are. -/
def partMembers : List (String × Json) → List (Option String × Part)
  | [] => []
  | (name, j) :: ms => (some name, part j) :: partMembers ms

end

/-- The kind of the top node. -/
def topKind : Document → Decoded NodeKind
  | .string s => Decode.named NodeKind.table s
  | d => .error (d.mismatch "variant identifier")

/-- A value below the top node. -/
def hold : Document → Decoded Part := Decode.whole fun j => .ok (part j)

/-- **The rule that a document describes.** -/
def decode : Document → Decoded Rule
  | .record ms closed => ofMembers topKind hold closed ms
  | .list ds closed => ofItems topKind hold closed ds
  | d => .error (d.mismatch anyTitle)

end Rule

end Rulebook
