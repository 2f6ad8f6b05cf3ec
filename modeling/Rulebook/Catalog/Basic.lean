import Rulebook.Catalog.FieldType
import Rulebook.Error
import Rulebook.Json.Record
import Rulebook.Keyed

/-!
# Catalogs of fields

A **catalog** holds the fields that conditions may name, each under its key.

* `Rulebook.Field` – a field: its key, a label for readers, and its type;
* `Rulebook.Catalog` – a catalog, its fields in the order of their keys;
* `Rulebook.Catalog.extend` – adds fields; a later field takes the place of an earlier one
  with its key;
* `Rulebook.Catalog.builtin` – the fields of payment transactions.
-/

namespace Rulebook

/-! ### Fields -/

/-- A field that conditions may name. -/
structure Field where
  /-- The key that conditions name it by. -/
  key : String
  /-- A label for readers. -/
  label : String
  /-- Its type. -/
  type : FieldType
deriving DecidableEq, Repr

namespace Field

/-- The JSON form of a field. -/
def toJson (f : Field) : Json :=
  .object [("fieldKey", .string f.key), ("label", .string f.label), ("type", .string f.type.name)]

/-- The form of the record of a field, whose type is decoded in one way or another. -/
def form (type : Document → Decoded FieldType) : Form Document Field :=
  Field.mk <$> .requiredOr "fieldKey" "field_key" Decode.string
    <*> .required "label" Decode.string
    <*> .required "type" type

/-- How a field is called in messages. -/
def title : String := "struct FieldDefinition"

/-- The field that a document describes. -/
def decode : Document → Decoded Field :=
  (form (Decode.name FieldType.table)).decodeDocument title

end Field

/-! ### Catalogs -/

/-- The fields that conditions may name. -/
structure Catalog where
  /-- The fields in the order of their keys. -/
  fields : List Field
  /-- No key occurs twice. -/
  ascending : Keyed.Ascending Field.key fields
deriving Repr

namespace Catalog

/-- The catalog without fields. -/
def empty : Catalog := ⟨[], Keyed.ascending_nil⟩

/-- **Adds fields** one after another, each in the place of the one with its key. -/
def extend (c : Catalog) (fields : List Field) : Catalog :=
  ⟨Keyed.extend Field.key c.fields fields, c.ascending.extend fields⟩

/-- The catalog of some fields. -/
def ofList (fields : List Field) : Catalog := empty.extend fields

/-- The fields of payment transactions. -/
def builtin : Catalog :=
  ofList
    [⟨"txn.amount", "Transaction Amount", .number⟩,
     ⟨"txn.mcc", "Merchant Category", .enum⟩,
     ⟨"card.present", "Card Present", .boolean⟩,
     ⟨"txn.timestamp", "Transaction Timestamp", .datetime⟩,
     ⟨"account.tags", "Account Tags", .list⟩,
     ⟨"txn.country", "Transaction Country", .string⟩]

/-- The field with a key. -/
def get? (c : Catalog) (key : String) : Option Field := Keyed.get? Field.key key c.fields

/-- The field with a key, which has to exist. -/
def require (c : Catalog) (key : String) : Except RuleError Field :=
  match c.get? key with
  | some f => .ok f
  | none => .error (.unknownField key)

/-- Whether a condition on a field may use an operator. -/
def allows (c : Catalog) (key : String) (op : Operator) : Except RuleError Bool := do
  let f ← c.require key
  return f.type.operators.contains op

/-- The number of fields. -/
def size (c : Catalog) : Nat := c.fields.length

end Catalog

end Rulebook
