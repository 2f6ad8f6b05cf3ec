import Mathlib.Data.Finset.Card
import Rulebook.Settings.Basic

/-!
# The last definition of a field counts

Fields are put into a catalog in batches: those it is made of, and others that are added later on,
such as the ones of the settings. A field may be defined again on the way. What comes of it is said
here by the definitions alone, without the order that a catalog is kept in.

Everything about a catalog is told by what is found under each key, since a list in the order of its
keys has no more to tell (`Rulebook.Keyed.eq_of_get?_eq`). What is found under a key is the last
item with it, because each item that is put into a list is found under its key from then on, and
changes nothing under the others.

* `Rulebook.Keyed.last?` – the **last item with a key**, and `Rulebook.Keyed.get?_extend` – that it
  is found;
* `Rulebook.Keyed.SameUnderKeys` – lists in which the items with the same key stand in the same
  order;
* `Rulebook.Catalog.ofBatches` – the catalog of some batches;
* `Rulebook.Catalog.ofBatches_spec` – **what is in it**, and what does not matter to it.
-/

namespace Rulebook

/-! ### Items under their keys -/

namespace Keyed

variable {α : Type} {key : α → String} {k : String} {x y : α} {xs ys items : List α}

/-- The items with a key, in their order. -/
def itemsWith (key : α → String) (k : String) (items : List α) : List α :=
  items.filter fun x => key x == k

/-- **The last item with a key.** -/
def last? (key : α → String) (k : String) (items : List α) : Option α :=
  (itemsWith key k items).getLast?

/-- **Lists with the same items under each key**, in the same order. Items with different keys may
stand in any order. -/
def SameUnderKeys (key : α → String) (xs ys : List α) : Prop :=
  ∀ k, itemsWith key k xs = itemsWith key k ys

theorem last?_cons : last? key k (x :: items) =
    (last? key k items).or (if key x = k then some x else none) := by
  by_cases hkey : key x = k
  · rw [last?, itemsWith, List.filter_cons_of_pos (by simpa using hkey), List.getLast?_cons,
      if_pos hkey]
    change some ((last? key k items).getD x) = _
    rcases last? key k items with _ | y <;> rfl
  · rw [last?, itemsWith, List.filter_cons_of_neg (by simpa using hkey), if_neg hkey, Option.or_none]
    rfl

theorem key_of_last?_eq_some (h : last? key k items = some x) : x ∈ items ∧ key x = k := by
  simpa [itemsWith] using List.mem_of_getLast? h

/-- There is a last item with a key if there is any. -/
theorem exists_last?_iff : (∃ x, last? key k items = some x) ↔ k ∈ items.map key := by
  constructor
  · rintro ⟨x, hx⟩
    obtain ⟨hmem, hkey⟩ := key_of_last?_eq_some hx
    exact List.mem_map.2 ⟨x, hmem, hkey⟩
  · intro h
    obtain ⟨x, hmem, hkey⟩ := List.mem_map.1 h
    have hwith : x ∈ itemsWith key k items := List.mem_filter.2 ⟨hmem, by simpa using hkey⟩
    exact ⟨_, List.getLast?_eq_some_getLast (List.ne_nil_of_mem hwith)⟩

/-! ### What is found -/

/-- **An item that is put into a list** is found under its key, and the others are under theirs. -/
theorem get?_put (x : α) (xs : List α) :
    get? key k (put key x xs) = if key x = k then some x else get? key k xs := by
  induction xs with
  | nil => by_cases hkey : key x = k <;> simp [put, get?, hkey]
  | cons y ys ih =>
    unfold put
    split
    · by_cases hkey : key x = k <;> simp [get?, hkey]
    · split
      · next heq => by_cases hkey : key x = k <;> simp [get?, ← heq, hkey]
      · next hne =>
        by_cases hy : key y = k
        · have hx : key x ≠ k := fun hx => hne (hx.trans hy.symm)
          simp [get?, hy, hx]
        · have hskip : ∀ zs : List α, get? key k (y :: zs) = get? key k zs := fun zs =>
            List.find?_cons_of_neg (by simpa using hy)
          rw [hskip, hskip, ih]

/-- **Of the items that are added the last one with a key is found**, and what was there before if
there is none. -/
theorem get?_extend (xs items : List α) :
    get? key k (extend key xs items) = (last? key k items).or (get? key k xs) := by
  induction items generalizing xs with
  | nil => rfl
  | cons x items ih =>
    calc get? key k (extend key (put key x xs) items)
        = (last? key k items).or (get? key k (put key x xs)) := ih _
      _ = (last? key k items).or ((if key x = k then some x else none).or (get? key k xs)) := by
        rw [get?_put]
        split <;> rfl
      _ = (last? key k (x :: items)).or (get? key k xs) := by rw [last?_cons, Option.or_assoc]

/-- In the order of their keys, items are found under their keys. -/
theorem Ascending.get?_eq_some_iff (h : Ascending key xs) :
    get? key k xs = some x ↔ x ∈ xs ∧ key x = k := by
  constructor
  · intro hget
    exact ⟨List.mem_of_find?_eq_some hget, by simpa using List.find?_some hget⟩
  · rintro ⟨hx, hkey⟩
    obtain ⟨before, after, hsplit⟩ := List.append_of_mem hx
    -- The keys go up, so the ones before the item are other ones.
    have hbefore : ∀ y ∈ before, key y < key x := fun y hy =>
      (List.pairwise_append.1 (hsplit ▸ h)).2.2 y hy x List.mem_cons_self
    rw [get?, List.find?_eq_some_iff_append]
    refine ⟨by simpa using hkey, before, after, hsplit, fun y hy => ?_⟩
    have hne : key y ≠ k := fun heq => by
      have hlt := hbefore y hy
      rw [heq, hkey] at hlt
      exact String.lt_irrefl k hlt
    simpa using hne

theorem Ascending.nodup_keys (h : Ascending key xs) : (xs.map key).Nodup := by
  rw [List.Nodup, List.pairwise_map]
  refine List.Pairwise.imp ?_ h
  intro x y hlt heq
  rw [heq] at hlt
  exact String.lt_irrefl _ hlt

/-- **Lists in the order of their keys are told by what is found in them.** -/
theorem eq_of_get?_eq (hx : Ascending key xs) (hy : Ascending key ys)
    (h : ∀ k, get? key k xs = get? key k ys) : xs = ys := by
  have hmem : ∀ z, z ∈ xs ↔ z ∈ ys := by
    intro z
    have hxs := hx.get?_eq_some_iff (x := z) (k := key z)
    have hys := hy.get?_eq_some_iff (x := z) (k := key z)
    rw [h, hys] at hxs
    simpa using hxs.symm
  have hperm : xs.Perm ys :=
    (List.perm_ext_iff_of_nodup hx.nodup_keys.of_map hy.nodup_keys.of_map).2 hmem
  exact hperm.eq_of_pairwise (fun _ _ _ _ hlt hlt' => absurd hlt' (String.lt_asymm hlt)) hx hy

end Keyed

/-! ### Catalogs -/

namespace Catalog

open Keyed

variable {catalog : Catalog} {key : String} {f g : Field}

theorem get?_eq_some_iff : catalog.get? key = some f ↔ f ∈ catalog.fields ∧ f.key = key :=
  catalog.ascending.get?_eq_some_iff

theorem get?_eq_none_iff : catalog.get? key = none ↔ ∀ f ∈ catalog.fields, f.key ≠ key := by
  simp [get?, Keyed.get?]

/-- Fields with the same key are the same. -/
theorem eq_of_key_eq (hf : f ∈ catalog.fields) (hg : g ∈ catalog.fields) (hkey : f.key = g.key) :
    f = g := by
  have hget : catalog.get? f.key = some f := get?_eq_some_iff.2 ⟨hf, rfl⟩
  rw [hkey, get?_eq_some_iff.2 ⟨hg, rfl⟩] at hget
  exact (Option.some.inj hget).symm

/-- **Catalogs are told by what is found in them.** -/
theorem ext_get? {c d : Catalog} (h : ∀ key, c.get? key = d.get? key) : c = d := by
  obtain ⟨fields, ascending⟩ := c
  obtain ⟨fields', ascending'⟩ := d
  obtain rfl : fields = fields' := eq_of_get?_eq ascending ascending' h
  rfl

theorem get?_extend (c : Catalog) (fields : List Field) :
    (c.extend fields).get? key = (last? Field.key key fields).or (c.get? key) :=
  Keyed.get?_extend c.fields fields

theorem extend_extend (c : Catalog) (fields fields' : List Field) :
    (c.extend fields).extend fields' = c.extend (fields ++ fields') := by
  simp [extend, Keyed.extend]

/-- A catalog is that of its fields. -/
theorem ofList_fields (c : Catalog) : ofList c.fields = c := by
  obtain ⟨fields, ascending⟩ := c
  simp only [ofList, extend, mk.injEq]
  exact gather_of_ascending ascending

/-- **The catalog of some batches of fields**, added one batch after another. -/
def ofBatches (batches : List (List Field)) : Catalog := batches.foldl extend empty

/-- How the fields are cut into batches does not matter. -/
theorem ofBatches_eq (batches : List (List Field)) : ofBatches batches = ofList batches.flatten := by
  have hfold : ∀ c : Catalog, batches.foldl extend c = c.extend batches.flatten := by
    induction batches with
    | nil => exact fun c => rfl
    | cons fields batches ih =>
      intro c
      rw [List.foldl_cons, ih, extend_extend, List.flatten_cons]
  exact hfold empty

theorem get?_ofBatches (batches : List (List Field)) :
    (ofBatches batches).get? key = last? Field.key key batches.flatten := by
  rw [ofBatches_eq, ofList, get?_extend]
  exact Option.or_none

theorem mem_fields_ofBatches_iff {batches : List (List Field)} :
    f ∈ (ofBatches batches).fields ↔ last? Field.key f.key batches.flatten = some f := by
  rw [← get?_ofBatches, get?_eq_some_iff]
  exact (and_iff_left rfl).symm

/-- A catalog has as many fields as there are different keys in the batches. -/
theorem size_ofBatches (batches : List (List Field)) :
    (ofBatches batches).size = (batches.flatten.map Field.key).toFinset.card := by
  have hfound : ∀ key, key ∈ batches.flatten.map Field.key ↔
      ∃ f, (ofBatches batches).get? key = some f := by
    intro key
    rw [← exists_last?_iff, get?_ofBatches]
  have hkeys : ((ofBatches batches).fields.map Field.key).toFinset =
      (batches.flatten.map Field.key).toFinset := by
    ext key
    rw [List.mem_toFinset, List.mem_toFinset, hfound, List.mem_map]
    exact exists_congr fun f => get?_eq_some_iff.symm
  rw [← hkeys, List.toFinset_card_of_nodup (ofBatches batches).ascending.nodup_keys,
    List.length_map, size]

/-- **What is in a catalog of some batches.** Take the fields of all batches, one batch behind
another.

* Under a key the last field with it is found, and nothing if there is none.
* The fields of the catalog are these last ones, and they go up strictly by their keys, so that
  each key comes once.
* There are as many of them as there are different keys.
* Neither the cuts between the batches matter, nor the order of fields with different keys.
* The catalog of the settings is that of two batches, the built-in fields and the added ones. -/
theorem ofBatches_spec (batches : List (List Field)) :
    (∀ key, (ofBatches batches).get? key = last? Field.key key batches.flatten) ∧
      (∀ f, f ∈ (ofBatches batches).fields ↔ last? Field.key f.key batches.flatten = some f) ∧
      Ascending Field.key (ofBatches batches).fields ∧
      (ofBatches batches).size = (batches.flatten.map Field.key).toFinset.card ∧
      (∀ batches', SameUnderKeys Field.key batches'.flatten batches.flatten →
        ofBatches batches' = ofBatches batches) ∧
      ∀ s : Settings, s.catalog = ofBatches [builtin.fields, s.fields] := by
  refine ⟨fun key => get?_ofBatches batches, fun f => mem_fields_ofBatches_iff,
    (ofBatches batches).ascending, size_ofBatches batches, fun batches' hsame => ?_, fun s => ?_⟩
  · refine ext_get? fun key => ?_
    rw [get?_ofBatches, get?_ofBatches, last?, hsame key, last?]
  · change builtin.extend s.fields = (ofList builtin.fields).extend s.fields
    rw [ofList_fields]

/-- An amount that is defined twice, the second time as text. -/
def amountTwice : List (List Field) :=
  [[⟨"txn.amount", "Amount", .number⟩, ⟨"txn.mcc", "Merchant Category", .enum⟩],
    [⟨"txn.amount", "Amount (text)", .string⟩]]

/-- The same fields in one batch. -/
def amountTwiceAtOnce : List (List Field) :=
  [[⟨"txn.amount", "Amount", .number⟩, ⟨"txn.amount", "Amount (text)", .string⟩,
    ⟨"txn.mcc", "Merchant Category", .enum⟩]]

theorem ofBatches_amountTwiceAtOnce :
    SameUnderKeys Field.key amountTwiceAtOnce.flatten amountTwice.flatten ∧
      ofBatches amountTwiceAtOnce = ofBatches amountTwice ∧
      (ofBatches amountTwice).get? "txn.amount" = some ⟨"txn.amount", "Amount (text)", .string⟩ ∧
      (ofBatches amountTwice).size = 2 := by
  have hsame : SameUnderKeys Field.key amountTwiceAtOnce.flatten amountTwice.flatten := by
    intro key
    by_cases hamount : "txn.amount" = key
    · subst hamount
      rfl
    · simp [amountTwice, amountTwiceAtOnce, itemsWith, List.filter_cons, hamount]
  obtain ⟨hget, -, -, hsize, hbatches, -⟩ := ofBatches_spec amountTwice
  exact ⟨hsame, hbatches _ hsame, hget _, hsize⟩

end Catalog

end Rulebook
