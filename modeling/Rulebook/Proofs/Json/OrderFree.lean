import Rulebook.Proofs.Json.Order
import Rulebook.Proofs.Json.Record

/-!
# Decoders that do not see the order of members

The members of a record may be written in any order, so a decoder should make the same of values
that are alike. That is so for each way in which decoders are put together: what is decoded from a
leaf or from a list does not look at members at all, a value that is kept is put in order first, and
a record is decoded by what stands under the names of its fields.

Only success is compared: of two mistakes a decoder reports the one that stands first, so its
errors do tell the order.

* `Rulebook.Decode.OrderFree` – such decoders;
* `Rulebook.Decode.orderFree_decodeDocument` – a record is one of them if its fields are.
-/

namespace Rulebook

/-- Documents of values that are alike. -/
def Document.Alike (d d' : Document) : Prop :=
  ∃ j j' : Json, j.Alike j' ∧ d = .ofJson j ∧ d' = .ofJson j'

namespace Document

theorem ofItems_eq_map (items : List Json) : ofItems items = items.map ofJson := by
  induction items with
  | nil => rfl
  | cons j items ih => rw [ofItems, ih, List.map_cons]

theorem ofMembers_eq_map (members : List (String × Json)) :
    ofMembers members = members.map (Prod.map some ofJson) := by
  induction members with
  | nil => rfl
  | cons m members ih => obtain ⟨name, j⟩ := m; rw [ofMembers, ih, List.map_cons]; rfl

theorem forall₂_alike_map {js js' : List Json} (h : List.Forall₂ Json.Alike js js') :
    List.Forall₂ (fun j j' => (ofJson j).Alike (ofJson j')) js js' :=
  h.imp fun j j' hj => ⟨j, j', hj, rfl, rfl⟩

end Document

namespace Decode

variable {α : Type} {decode : Document → Decoded α}

/-- **A decoder that does not see the order of members.** -/
def OrderFree (decode : Document → Decoded α) : Prop :=
  ∀ d d', Document.Alike d d' → ∀ a, decode d = .ok a ↔ decode d' = .ok a

theorem OrderFree.decode_eq_ok_iff (h : OrderFree decode) {j j' : Json} (hj : j.Alike j') (a : α) :
    decode (.ofJson j) = .ok a ↔ decode (.ofJson j') = .ok a :=
  h _ _ ⟨j, j', hj, rfl, rfl⟩ a

/-- It is enough to show one direction, as the other is the same the other way round. -/
theorem OrderFree.of_imp (h : ∀ j j' : Json, j.Alike j' → ∀ a, decode (.ofJson j) = .ok a →
    decode (.ofJson j') = .ok a) : OrderFree decode := by
  rintro d d' ⟨j, j', hj, rfl, rfl⟩ a
  exact ⟨h j j' hj a, h j' j hj.symm a⟩

/-- A decoder of leaves sees no members. -/
theorem OrderFree.of_leaf (hlist : ∀ items closed a, decode (.list items closed) ≠ .ok a)
    (hrecord : ∀ members closed a, decode (.record members closed) ≠ .ok a) :
    OrderFree decode := by
  refine .of_imp fun j j' hj a h => ?_
  rcases hj.cases with rfl | ⟨items, items', rfl, rfl, -⟩ | ⟨members, members', rfl, rfl, -⟩
  · exact h
  · exact absurd h (hlist _ _ _)
  · exact absurd h (hrecord _ _ _)

theorem orderFree_string : OrderFree string := .of_leaf nofun nofun

theorem orderFree_bool : OrderFree bool := .of_leaf nofun nofun

theorem orderFree_int64 : OrderFree int64 := .of_leaf nofun nofun

theorem uint32_toNat (n : UInt32) : uint32 (.integer n.toNat) = .ok n := by
  have hn : (n.toNat : Int) < UInt32.size := by exact_mod_cast n.toNat_lt
  rw [uint32, if_pos ⟨Int.natCast_nonneg _, hn⟩, Int.toNat_natCast, UInt32.ofNat_toNat]

theorem orderFree_uint32 : OrderFree uint32 := .of_leaf nofun nofun

theorem kept_ofJson (j : Json) : kept (.ofJson j) = .ok (.ofJson j) := by
  rw [kept, whole, Document.value?_ofJson]

/-- What is kept of a value has its members in order. -/
theorem orderFree_kept : OrderFree kept := by
  refine .of_imp fun j j' hj a h => ?_
  have hsame : Opaque.ofJson j = Opaque.ofJson j' := Opaque.ext hj.canonical_eq
  rw [kept_ofJson] at h ⊢
  rw [← hsame, h]

theorem map_eq_ok_iff {β γ : Type} {x : Except γ α} {f : α → β} {b : β} :
    f <$> x = .ok b ↔ ∃ a, x = .ok a ∧ f a = b := by
  cases x <;> simp [Functor.map, Except.map]

theorem OrderFree.option (h : OrderFree decode) : OrderFree (option decode) := by
  refine .of_imp fun j j' hj a hrun => ?_
  have hsome : some <$> decode (.ofJson j) = .ok a ↔ some <$> decode (.ofJson j') = .ok a := by
    rw [map_eq_ok_iff, map_eq_ok_iff]
    simp only [h.decode_eq_ok_iff hj]
  rcases hj.cases with rfl | ⟨items, items', rfl, rfl, -⟩ | ⟨members, members', rfl, rfl, -⟩
  · exact hrun
  · exact hsome.1 hrun
  · exact hsome.1 hrun

/-- Items are decoded one by one. -/
theorem mapM_eq_ok_iff {β γ : Type} {f : β → Except γ α} {xs : List β} {as : List α} :
    xs.mapM f = .ok as ↔ List.Forall₂ (fun x a => f x = .ok a) xs as := by
  induction xs generalizing as with
  | nil => simp [pure, Except.pure, eq_comm]
  | cons x xs ih =>
    rw [List.mapM_cons, List.forall₂_cons_left_iff]
    simp only [← ih]
    cases f x with
    | error e => simp [bind, Except.bind]
    | ok a => cases xs.mapM f <;> simp [bind, Except.bind, pure, Except.pure, eq_comm]

/-- **What is made of a list**: its items, decoded one by one. -/
theorem list_array_eq_ok_iff {items : List Json} {as : List α} :
    list decode (.ofJson (.array items)) = .ok as ↔
      List.Forall₂ (fun j a => decode (.ofJson j) = .ok a) items as := by
  have hlist : list decode (.ofJson (.array items)) = (Document.ofItems items).mapM decode := by
    simp [list, Document.ofJson]
  rw [hlist, Document.ofItems_eq_map, mapM_eq_ok_iff, List.forall₂_map_left_iff]

theorem OrderFree.list (h : OrderFree decode) : OrderFree (list decode) := by
  refine .of_imp fun j j' hj as hrun => ?_
  rcases hj.cases with rfl | ⟨items, items', rfl, rfl, hitems⟩ | ⟨members, members', rfl, rfl, -⟩
  · exact hrun
  · rw [list_array_eq_ok_iff] at hrun ⊢
    exact (forall₂_congr_left hitems fun i i' a hi => h.decode_eq_ok_iff hi a).1 hrun
  · cases hrun

/-- A name in a record stands alone there, with nothing as its value. -/
theorem name_object_eq_ok_iff {table : List (String × α)} {members : List (String × Json)} {a : α} :
    name table (.ofJson (.object members)) = .ok a ↔
      ∃ s, members = [(s, .null)] ∧ named table s = .ok a := by
  rcases members with _ | ⟨⟨s, j⟩, members⟩
  · simp [name, Document.ofJson, Document.ofMembers]
  · cases hs : named table s with
    | error e => simp [name, Document.ofJson, Document.ofMembers, hs, bind, Except.bind]
    | ok b =>
      cases j <;> cases members <;>
        simp [name, Document.ofJson, Document.ofMembers, hs, bind, Except.bind, pure, Except.pure]

theorem orderFree_name (table : List (String × α)) : OrderFree (name table) := by
  refine .of_imp fun j j' hj a hrun => ?_
  rcases hj.cases with rfl | ⟨items, items', rfl, rfl, -⟩ | ⟨members, members', rfl, rfl, hmembers⟩
  · exact hrun
  · cases hrun
  · rw [name_object_eq_ok_iff] at hrun ⊢
    obtain ⟨s, rfl, hs⟩ := hrun
    obtain ⟨j', rfl, hj'⟩ := hmembers.of_singleton
    obtain rfl := hj'.eq_null
    exact ⟨s, rfl, hs⟩

/-! ### Records -/

variable {form : Form Document α} {title : String}

theorem decodeDocument_object (members : List (String × Json)) :
    form.decodeDocument title (.ofJson (.object members)) =
      form.decode title (fun _ _ => .malformed)
        (.members (members.map (Prod.map some Document.ofJson)) true) := by
  rw [Document.ofJson, Document.ofMembers_eq_map]
  rfl

/-- What is made of a record with members with different names. -/
theorem decodeDocument_of_reads {members : List (String × Json)} {a : α}
    (h : Form.Reads Document.ofJson members form a) (hplain : Form.Plain form.names)
    (hnames : (members.map Prod.fst).Nodup) :
    form.decodeDocument title (.ofJson (.object members)) = .ok a := by
  rw [decodeDocument_object]
  exact h.decode_members hplain hnames

/-- **A record is decoded without regard to order** if its fields are. -/
theorem orderFree_decodeDocument (h : form.Respects Document.Alike)
    (hplain : Form.Plain form.names) : OrderFree (form.decodeDocument title) := by
  rintro d d' ⟨j, j', hj, rfl, rfl⟩ a
  rcases hj.cases with rfl | ⟨items, items', rfl, rfl, hitems⟩ |
    ⟨members, members', rfl, rfl, hmembers⟩
  · exact Iff.rfl
  · have hds : List.Forall₂ Document.Alike (Document.ofItems items) (Document.ofItems items') := by
      rw [Document.ofItems_eq_map, Document.ofItems_eq_map, List.forall₂_map_left_iff,
        List.forall₂_map_right_iff]
      exact Document.forall₂_alike_map hitems
    exact h.decode_items hds a
  · have hvalues := fun name => Document.forall₂_alike_map (hmembers.valuesOf name)
    rw [decodeDocument_object, decodeDocument_object]
    exact h.decode_members hplain (fun name _ => hvalues name) a

end Decode

/-! ### Records that are encoded -/

/-- The members of an object. -/
@[simp] def Json.members : Json → List (String × Json)
  | .object members => members
  | _ => []

/-- A member that is written only if it has a value. -/
@[simp] theorem valuesOf_optional (name other : String) (value : Option Json) :
    valuesOf name (Json.optional other value) = if other = name then value.toList else [] := by
  cases value with
  | none => simp [Json.optional]
  | some j => simp [Json.optional, valuesOf_cons]

/-- An optional field is read from a member that is written only if it has a value. -/
theorem Form.Reads.optional {α : Type} {members : List (String × Json)} {name : String}
    {decode : Document → Decoded α} {value : Option α} {toJson : α → Json}
    (hvalue : valuesOf name members = (value.map toJson).toList)
    (h : ∀ a, Decode.option decode (.ofJson (toJson a)) = .ok (some a)) :
    Reads Document.ofJson members (Form.optional name decode) value := by
  cases value with
  | none => exact .defaulted_of_absent hvalue
  | some a => exact .defaulted hvalue (h a)

end Rulebook
