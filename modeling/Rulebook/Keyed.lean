/-!
# Lists kept in the order of their keys

A list whose items have texts as keys is **ascending** if the keys go up strictly: then
no key occurs twice, and the list is the only one of its items. Both the members of an
opaque JSON object and the fields of a catalog are kept so.

* `Rulebook.Keyed.Ascending` – the condition;
* `Rulebook.Keyed.put` – adds an item, in the place of the item with its key if there
  is one;
* `Rulebook.Keyed.gather` – an ascending list of the items of any list, the last of those
  with the same key;
* `Rulebook.Keyed.get?` – the item with a key.

Texts are compared character by character, and characters by their numbers.
-/

namespace Rulebook.Keyed

variable {α : Type}

/-- Whether the keys go up strictly. -/
def Ascending (key : α → String) (xs : List α) : Prop := xs.Pairwise fun x y => key x < key y

/-- The item with a key. -/
def get? (key : α → String) (k : String) (xs : List α) : Option α := xs.find? fun x => key x == k

/-- Adds an item before the first one with a larger key; an item with the same key gives
way to it. -/
def put (key : α → String) (x : α) : List α → List α
  | [] => [x]
  | y :: ys =>
    if key x < key y then x :: y :: ys
    else if key x = key y then x :: ys
    else y :: put key x ys

/-- Adds the items of a list one after another. -/
def extend (key : α → String) (xs : List α) (items : List α) : List α :=
  items.foldl (fun acc x => put key x acc) xs

/-- The items of a list in the order of their keys, of those with the same key the last. -/
def gather (key : α → String) (items : List α) : List α := extend key [] items

/-! ### The lists stay ascending -/

variable {key : α → String}

@[simp] theorem ascending_nil : Ascending key ([] : List α) := .nil

theorem ascending_cons {x : α} {xs : List α} :
    Ascending key (x :: xs) ↔ (∀ y ∈ xs, key x < key y) ∧ Ascending key xs :=
  List.pairwise_cons

/-- What is in the list after an item is put into it was there before, or is the item. -/
theorem mem_of_mem_put {x z : α} {xs : List α} (h : z ∈ put key x xs) : z = x ∨ z ∈ xs := by
  induction xs with
  | nil => simpa [put] using h
  | cons y ys ih =>
    unfold put at h
    split at h
    · simpa using h
    · split at h
      · rcases List.mem_cons.1 h with h | h
        · exact Or.inl h
        · exact Or.inr (List.mem_cons_of_mem _ h)
      · rcases List.mem_cons.1 h with h | h
        · exact Or.inr (h ▸ List.mem_cons_self)
        · rcases ih h with h | h
          · exact Or.inl h
          · exact Or.inr (List.mem_cons_of_mem _ h)

theorem Ascending.put {xs : List α} (h : Ascending key xs) (x : α) :
    Ascending key (put key x xs) := by
  induction xs with
  | nil => simp [Keyed.put, Ascending]
  | cons y ys ih =>
    obtain ⟨hy, hys⟩ := ascending_cons.1 h
    unfold Keyed.put
    split
    · next hlt =>
      refine ascending_cons.2 ⟨fun z hz => ?_, h⟩
      rcases List.mem_cons.1 hz with rfl | hz
      · exact hlt
      · exact String.lt_trans hlt (hy z hz)
    · split
      · next heq => exact ascending_cons.2 ⟨fun z hz => heq ▸ hy z hz, hys⟩
      · next hnlt hne =>
        refine ascending_cons.2 ⟨fun z hz => ?_, ih hys⟩
        rcases mem_of_mem_put hz with rfl | hz
        · grind
        · exact hy z hz

theorem Ascending.extend {xs : List α} (h : Ascending key xs) (items : List α) :
    Ascending key (extend key xs items) := by
  induction items generalizing xs with
  | nil => exact h
  | cons x items ih => exact ih (h.put x)

theorem ascending_gather (items : List α) : Ascending key (gather key items) :=
  ascending_nil.extend items

/-! ### An ascending list is its own gathering -/

/-- An item whose key is above all others goes to the end. -/
theorem put_of_forall_lt {x : α} {xs : List α} (h : ∀ y ∈ xs, key y < key x) :
    put key x xs = xs ++ [x] := by
  induction xs with
  | nil => rfl
  | cons y ys ih =>
    have hy := h y List.mem_cons_self
    have hlt : ¬key x < key y := fun h' => String.lt_irrefl _ (String.lt_trans hy h')
    have hne : key x ≠ key y := fun h' => String.lt_irrefl _ (h' ▸ hy)
    simp [put, hlt, hne, ih fun z hz => h z (List.mem_cons_of_mem _ hz)]

theorem extend_of_ascending_append {xs items : List α} (h : Ascending key (xs ++ items)) :
    extend key xs items = xs ++ items := by
  induction items generalizing xs with
  | nil => simp [extend]
  | cons x items ih =>
    have hx : ∀ y ∈ xs, key y < key x := fun y hy =>
      (List.pairwise_append.1 h).2.2 y hy x List.mem_cons_self
    have happ : xs ++ x :: items = (xs ++ [x]) ++ items := by simp
    have hstep : extend key xs (x :: items) = extend key (xs ++ [x]) items := by
      simp [extend, put_of_forall_lt hx]
    rw [hstep, ih (happ ▸ h), happ]

theorem gather_of_ascending {xs : List α} (h : Ascending key xs) : gather key xs = xs :=
  extend_of_ascending_append (by simpa using h)

end Rulebook.Keyed
