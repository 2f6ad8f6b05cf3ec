import Rulebook.Json.Opaque
import Rulebook.Proofs.Json.Members

/-!
# Values that differ in the order of their members

A value is **distinct** if no object in it has two members of one name. Of distinct values those
with the same canonical form are **alike**: they differ in nothing but the order of the members, at
every depth. What is alike to a value is told apart here the way decoders go into it, step by step:
a leaf is alike to itself only, an array to the arrays with alike items, and an object to those
that have, under each name, alike values.

* `Rulebook.Json.Distinct`, `Rulebook.Json.Alike` – the two notions;
* `Rulebook.Json.Distinct.alike_canonical` – **a distinct value is alike to its canonical form**;
* `Rulebook.Json.Alike.cases` – one step into values that are alike.
-/

namespace Rulebook

namespace Json

/-! ### Going into a value -/

/-- **Induction on a value**, the items of an array and the values of an object coming first. -/
theorem induction {P : Json → Prop} (null : P .null) (bool : ∀ b, P (.bool b))
    (integer : ∀ i, P (.integer i)) (real : ∀ x, P (.real x)) (string : ∀ s, P (.string s))
    (array : ∀ items, (∀ j ∈ items, P j) → P (.array items))
    (object : ∀ members, (∀ m ∈ members, P m.2) → P (.object members)) (j : Json) : P j :=
  @Json.rec P (fun items => ∀ j ∈ items, P j) (fun members => ∀ m ∈ members, P m.2)
    (fun m => P m.2) null bool integer real string array object nofun
    (fun _ _ hj hjs => List.forall_mem_cons.2 ⟨hj, hjs⟩) nofun
    (fun _ _ hm hms => List.forall_mem_cons.2 ⟨hm, hms⟩) (fun _ _ hj => hj) j

/-- **No object in the value has two members of one name.** -/
inductive Distinct : Json → Prop
  | null : Distinct .null
  | bool (b : Bool) : Distinct (.bool b)
  | integer (i : Int) : Distinct (.integer i)
  | real (x : Double) : Distinct (.real x)
  | string (s : String) : Distinct (.string s)
  /-- All items of an array are distinct. -/
  | array {items : List Json} (items_distinct : ∀ j ∈ items, Distinct j) : Distinct (.array items)
  /-- The names of an object are distinct, and so are its values. -/
  | object {members : List (String × Json)} (names_nodup : (members.map Prod.fst).Nodup)
    (values_distinct : ∀ m ∈ members, Distinct m.2) : Distinct (.object members)

/-- **Values that differ in the order of members only**, at every depth. -/
structure Alike (j j' : Json) : Prop where
  /-- The first value is distinct. -/
  left : j.Distinct
  /-- So is the second. -/
  right : j'.Distinct
  /-- With all members put in order they are the same. -/
  canonical_eq : j.canonical = j'.canonical

/-! ### The canonical form -/

theorem canonicalItems_eq_map (items : List Json) : canonicalItems items = items.map canonical := by
  induction items with
  | nil => rfl
  | cons j items ih => rw [canonicalItems, ih, List.map_cons]

theorem canonicalMembers_eq_map (members : List (String × Json)) :
    canonicalMembers members = members.map (Prod.map id canonical) := by
  induction members with
  | nil => rfl
  | cons m members ih => obtain ⟨name, j⟩ := m; rw [canonicalMembers, ih, List.map_cons]; rfl

theorem map_fst_canonicalMembers (members : List (String × Json)) :
    (canonicalMembers members).map Prod.fst = members.map Prod.fst := by
  simp [canonicalMembers_eq_map]

theorem gather_canonicalMembers_perm {members : List (String × Json)}
    (h : (members.map Prod.fst).Nodup) :
    (Keyed.gather Prod.fst (canonicalMembers members)).Perm (canonicalMembers members) :=
  Keyed.gather_perm (by rwa [map_fst_canonicalMembers])

theorem valuesOf_canonicalMembers (name : String) (members : List (String × Json)) :
    valuesOf name (canonicalMembers members) = (valuesOf name members).map canonical := by
  rw [canonicalMembers_eq_map]
  exact valuesOf_map Function.injective_id canonical

theorem canonicalItems_iff {items : List Json} :
    CanonicalItems items ↔ ∀ j ∈ items, j.Canonical := by
  induction items with
  | nil => simp [CanonicalItems]
  | cons j items ih => simp [CanonicalItems, ih]

/-- In a canonical value the names go up, so none comes twice. -/
theorem Canonical.distinct {j : Json} (h : j.Canonical) : j.Distinct := by
  induction j using Json.induction with
  | null => exact .null
  | bool b => exact .bool b
  | integer i => exact .integer i
  | real x => exact .real x
  | string s => exact .string s
  | array items ih => exact .array fun j hj => ih j hj (canonicalItems_iff.1 h j hj)
  | object members ih =>
    obtain ⟨hnames, hvalues⟩ := h
    refine .object ?_ fun m hm => ih m hm (canonicalMembers_iff.1 hvalues m hm)
    refine List.pairwise_map.2 (hnames.imp fun hlt heq => ?_)
    exact String.lt_irrefl _ (heq ▸ hlt)

/-- **A distinct value is alike to its canonical form.** -/
theorem Distinct.alike_canonical {j : Json} (h : j.Distinct) : j.Alike j.canonical where
  left := h
  right := (canonical_canonical j).distinct
  canonical_eq := (Canonical.canonical_eq j.canonical (canonical_canonical j)).symm

/-! ### Records -/

/-- **Members with distinct values.** -/
def DistinctValues (members : List (String × Json)) : Prop := ∀ m ∈ members, m.2.Distinct

namespace DistinctValues

variable {members members' : List (String × Json)} {name : String}

theorem append (h : DistinctValues members) (h' : DistinctValues members') :
    DistinctValues (members ++ members') :=
  List.forall_mem_append.2 ⟨h, h'⟩

/-- **A member that may be left out**, behind others. -/
theorem append_optional (h : DistinctValues members) {value : Option Json}
    (hvalue : ∀ j ∈ value, j.Distinct) : DistinctValues (members ++ optional name value) := by
  refine h.append ?_
  cases value with
  | none => exact nofun
  | some j => exact List.forall_mem_singleton.2 (hvalue j rfl)

end DistinctValues

/-! ### One step into values that are alike -/

/-- Members that are alike: the same names with alike values, in any order. -/
structure AlikeMembers (members members' : List (String × Json)) : Prop where
  /-- With the values put in order, they are the same members. -/
  perm : (canonicalMembers members).Perm (canonicalMembers members')
  /-- Under each name stand alike values. -/
  valuesOf (name : String) :
    List.Forall₂ Alike (valuesOf name members) (valuesOf name members')

namespace Alike

variable {j j' : Json} {members members' : List (String × Json)} {items items' : List Json}

theorem refl (h : j.Distinct) : j.Alike j := ⟨h, h, rfl⟩

theorem symm (h : j.Alike j') : j'.Alike j := ⟨h.right, h.left, h.canonical_eq.symm⟩

/-- Values are alike one by one if all of them are distinct and their canonical forms the same. -/
theorem forall₂_of_map_eq (hleft : ∀ j ∈ items, j.Distinct) (hright : ∀ j ∈ items', j.Distinct)
    (h : items.map canonical = items'.map canonical) : List.Forall₂ Alike items items' := by
  induction items generalizing items' with
  | nil =>
    obtain rfl := List.map_eq_nil_iff.1 h.symm
    exact .nil
  | cons j items ih =>
    obtain ⟨j', items', rfl, hj, hitems⟩ := List.map_eq_cons_iff.1 h.symm
    obtain ⟨hjleft, hleft⟩ := List.forall_mem_cons.1 hleft
    obtain ⟨hjright, hright⟩ := List.forall_mem_cons.1 hright
    exact .cons ⟨hjleft, hjright, hj.symm⟩ (ih hleft hright hitems.symm)

theorem forall₂_items (h : Alike (.array items) (.array items')) :
    List.Forall₂ Alike items items' := by
  cases h.left with | array hleft =>
  cases h.right with | array hright =>
  have hmap : items.map canonical = items'.map canonical := by
    simpa only [canonical, Json.array.injEq, canonicalItems_eq_map] using h.canonical_eq
  exact forall₂_of_map_eq hleft hright hmap

theorem alikeMembers (h : Alike (.object members) (.object members')) :
    AlikeMembers members members' := by
  cases h.left with | object hnames hleft =>
  cases h.right with | object hnames' hright =>
  have hgather : Keyed.gather Prod.fst (canonicalMembers members) =
      Keyed.gather Prod.fst (canonicalMembers members') := Json.object.inj h.canonical_eq
  -- Each list is what is gathered from it, moved about.
  have hperm : (canonicalMembers members).Perm (canonicalMembers members') :=
    (gather_canonicalMembers_perm hnames).symm.trans
      (hgather ▸ gather_canonicalMembers_perm hnames')
  refine ⟨hperm, fun name => ?_⟩
  have hone : (Rulebook.valuesOf name (canonicalMembers members)).length ≤ 1 :=
    length_valuesOf_le_one (by rwa [map_fst_canonicalMembers]) name
  have heq := valuesOf_eq_of_perm hperm hone
  rw [valuesOf_canonicalMembers, valuesOf_canonicalMembers] at heq
  exact forall₂_of_map_eq (fun j hj => hleft _ (mem_valuesOf.1 hj))
    (fun j hj => hright _ (mem_valuesOf.1 hj)) heq.symm

/-- **One step into values that are alike**: they are the same leaf, or arrays with alike items, or
objects with alike members. -/
theorem cases (h : j.Alike j') :
    j = j' ∨ (∃ items items', j = .array items ∧ j' = .array items' ∧
      List.Forall₂ Alike items items') ∨
      ∃ members members', j = .object members ∧ j' = .object members' ∧
        AlikeMembers members members' := by
  have hcanonical := h.canonical_eq
  cases j <;> cases j'
  case array.array items items' =>
    exact Or.inr (Or.inl ⟨items, items', rfl, rfl, h.forall₂_items⟩)
  case object.object members members' =>
    exact Or.inr (Or.inr ⟨members, members', rfl, rfl, h.alikeMembers⟩)
  all_goals first | exact Or.inl hcanonical | cases hcanonical

/-- Nothing else is alike to `null`. -/
theorem eq_null (h : Alike .null j) : j = .null := by
  rcases h.cases with rfl | ⟨items, items', heq, -⟩ | ⟨members, members', heq, -⟩
  · rfl
  · cases heq
  · cases heq

/-- Nor is anything alike to an object without members. -/
theorem eq_object_nil (h : Alike (.object []) j) : j = .object [] := by
  rcases h.cases with rfl | ⟨items, items', heq, -⟩ | ⟨members, members', heq, rfl, hmembers⟩
  · rfl
  · cases heq
  · cases heq
    have hnil : members'.map (Prod.map id canonical) = [] := by
      simpa [canonicalMembers_eq_map] using hmembers.perm.symm.eq_nil
    rw [List.map_eq_nil_iff.1 hnil]

end Alike

/-- Members alike to a single one are a single one. -/
theorem AlikeMembers.of_singleton {name : String} {j : Json} {members : List (String × Json)}
    (h : AlikeMembers [(name, j)] members) : ∃ j', members = [(name, j')] ∧ j.Alike j' := by
  have hlength : members.length = 1 := by
    simpa [canonicalMembers_eq_map] using h.perm.length_eq.symm
  obtain ⟨⟨name', j'⟩, rfl⟩ := List.length_eq_one_iff.1 hlength
  have hsingle : [(name, j.canonical)] = [(name', j'.canonical)] :=
    List.singleton_perm_singleton.1 h.perm |> fun h => by rw [h]
  obtain ⟨rfl, -⟩ := Prod.mk.inj (List.cons.inj hsingle).1
  have hvalues := h.valuesOf name
  simp only [valuesOf_cons_self, valuesOf_nil] at hvalues
  exact ⟨j', rfl, (List.forall₂_cons.1 hvalues).1⟩

end Json

end Rulebook
