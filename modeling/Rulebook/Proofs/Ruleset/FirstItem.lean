import Mathlib.Data.List.Nodup
import Rulebook.Ruleset.Edit

/-!
# The first item of some kind

Versions and entries are looked up by their ids, and what is found is always the **first**
item with an id. A look-up, an edit and a removal are three functions, but all of them cut the
list at the same place, so they are described by one cut.

* `Rulebook.FirstAt` – a list cut at its first item that a test picks;
* `Rulebook.FirstAt.find?_eq`, `Rulebook.FirstAt.onFirst_eq`, `Rulebook.FirstAt.eraseP_eq` –
  what is found, edited and removed, read off the cut;
* `Rulebook.exists_firstAt` – a list is cut somewhere, or holds nothing that the test picks;
* `Rulebook.exists_firstAt_of_nodup` – where keys tell the items apart, an item is the first one
  with its key.
-/

namespace Rulebook

variable {σ α : Type} {picks : σ → Bool} {xs pre post : List σ} {x : σ}

/-- **A list cut at its first item that a test picks.** -/
structure FirstAt (picks : σ → Bool) (xs pre : List σ) (x : σ) (post : List σ) : Prop where
  /-- The list is what lies before the item, the item, and what lies behind it. -/
  eq : xs = pre ++ x :: post
  /-- The item is picked. -/
  picked : picks x = true
  /-- Nothing before it is. -/
  before : ∀ y ∈ pre, picks y = false

/-- A list is cut somewhere, or the test picks nothing in it. -/
theorem exists_firstAt (picks : σ → Bool) (xs : List σ) :
    (∃ pre x post, FirstAt picks xs pre x post) ∨ ∀ x ∈ xs, picks x = false := by
  induction xs with
  | nil => exact Or.inr fun x hx => absurd hx List.not_mem_nil
  | cons x xs ih =>
    rcases Bool.eq_false_or_eq_true (picks x) with hx | hx
    · exact Or.inl ⟨[], x, xs, rfl, hx, fun y hy => absurd hy List.not_mem_nil⟩
    · rcases ih with ⟨pre, y, post, rfl, hy, hpre⟩ | hnone
      · refine Or.inl ⟨x :: pre, y, post, rfl, hy, fun z hz => ?_⟩
        rcases List.mem_cons.mp hz with rfl | hz
        · exact hx
        · exact hpre z hz
      · refine Or.inr fun z hz => ?_
        rcases List.mem_cons.mp hz with rfl | hz
        · exact hx
        · exact hnone z hz

namespace FirstAt

theorem mem (h : FirstAt picks xs pre x post) : x ∈ xs := by
  rw [h.eq]
  exact List.mem_append_right pre List.mem_cons_self

/-- Without the item the others are left, in the same order. -/
theorem sublist (h : FirstAt picks xs pre x post) : (pre ++ post).Sublist xs := by
  rw [h.eq]
  exact (List.sublist_cons_self x post).append_left pre

/-- The item at the cut may be replaced by another one that the test picks. -/
theorem replace (h : FirstAt picks xs pre x post) {y : σ} (hy : picks y = true) :
    FirstAt picks (pre ++ y :: post) pre y post :=
  ⟨rfl, hy, h.before⟩

theorem find?_eq (h : FirstAt picks xs pre x post) : xs.find? picks = some x := by
  rw [List.find?_eq_some_iff_append]
  exact ⟨h.picked, pre, post, h.eq, fun y hy => by simp [h.before y hy]⟩

/-- Look-ups that pass over the item find what they found before when it is replaced. -/
theorem find?_replace (h : FirstAt picks xs pre x post) {y : σ} {wanted : σ → Bool}
    (hx : wanted x = false) (hy : wanted y = false) :
    (pre ++ y :: post).find? wanted = xs.find? wanted := by
  simp [h.eq, List.find?_append, hx, hy]

/-- When the item at the cut is replaced, every place holds what it held before, save the one at
the cut. -/
theorem getElem?_replace (h : FirstAt picks xs pre x post) (y : σ) {i : Nat} {z : σ}
    (hz : xs[i]? = some z) :
    (z = x ∧ (pre ++ y :: post)[i]? = some y) ∨ (pre ++ y :: post)[i]? = some z := by
  rw [h.eq] at hz
  rcases Nat.lt_trichotomy i pre.length with hlt | rfl | hgt
  · rw [List.getElem?_append_left hlt] at hz
    exact Or.inr (by rw [List.getElem?_append_left hlt, hz])
  · rw [List.getElem?_append_right (Nat.le_refl _), Nat.sub_self, List.getElem?_cons_zero] at hz
    refine Or.inl ⟨(Option.some.inj hz).symm, ?_⟩
    rw [List.getElem?_append_right (Nat.le_refl _), Nat.sub_self, List.getElem?_cons_zero]
  · obtain ⟨k, rfl⟩ := Nat.exists_eq_add_of_lt hgt
    have hle : pre.length ≤ pre.length + k + 1 := by omega
    have hsub : pre.length + k + 1 - pre.length = k + 1 := by omega
    rw [List.getElem?_append_right hle, hsub, List.getElem?_cons_succ] at hz
    exact Or.inr (by rw [List.getElem?_append_right hle, hsub, List.getElem?_cons_succ, hz])

/-- **The same item comes first** when others are left out, wherever they stand. -/
theorem filter (h : FirstAt picks xs pre x post) {keeps : σ → Bool} (hkeeps : keeps x = true) :
    FirstAt picks (xs.filter keeps) (pre.filter keeps) x (post.filter keeps) := by
  refine ⟨?_, h.picked, fun y hy => h.before y (List.mem_filter.mp hy).1⟩
  rw [h.eq, List.filter_append, List.filter_cons_of_pos hkeeps]

theorem any_eq (h : FirstAt picks xs pre x post) : xs.any picks = true :=
  List.any_eq_true.mpr ⟨x, h.mem, h.picked⟩

theorem eraseP_eq (h : FirstAt picks xs pre x post) : xs.eraseP picks = pre ++ post := by
  have hpre : ∀ y ∈ pre, ¬picks y = true := fun y hy => by simp [h.before y hy]
  rw [h.eq, List.eraseP_append_right _ hpre, List.eraseP_cons_of_pos h.picked]

/-- **An edit of the first item** leaves all others where they are. -/
theorem onFirst_eq (h : FirstAt picks xs pre x post) (e : Edit σ α) :
    Edit.onFirst picks e xs = some ((e.run x).1, pre ++ (e.run x).2 :: post) := by
  obtain ⟨rfl, hx, hpre⟩ := h
  induction pre with
  | nil => simp [Edit.onFirst, hx]
  | cons y pre ih =>
    have hy : picks y = false := hpre y List.mem_cons_self
    simp [Edit.onFirst, hy, ih fun z hz => hpre z (List.mem_cons_of_mem _ hz)]

end FirstAt

theorem exists_firstAt_of_find? (h : xs.find? picks = some x) :
    ∃ pre post, FirstAt picks xs pre x post := by
  obtain ⟨hx, pre, post, heq, hpre⟩ := List.find?_eq_some_iff_append.mp h
  exact ⟨pre, post, heq, hx, fun y hy => by simpa using hpre y hy⟩

section Keys

variable {κ : Type} {key : σ → κ}

/-- Where keys tell the items apart, none of the others has that of the item at a place. -/
theorem key_ne_of_nodup (hkeys : (xs.map key).Nodup) (heq : xs = pre ++ x :: post) :
    ∀ y ∈ pre ++ post, key y ≠ key x := by
  rw [heq, List.map_append, List.map_cons, List.nodup_middle, ← List.map_append] at hkeys
  intro y hy hkey
  exact (List.nodup_cons.mp hkeys).1 (hkey ▸ List.mem_map_of_mem hy)

/-- **Where keys tell the items apart**, an item is the first one with its key, and the only one. -/
theorem exists_firstAt_of_nodup [BEq κ] [LawfulBEq κ] (hkeys : (xs.map key).Nodup) (hx : x ∈ xs) :
    ∃ pre post, FirstAt (fun y => key y == key x) xs pre x post ∧
      ∀ y ∈ pre ++ post, key y ≠ key x := by
  obtain ⟨pre, post, heq⟩ := List.append_of_mem hx
  have hothers := key_ne_of_nodup hkeys heq
  refine ⟨pre, post, ⟨heq, beq_self_eq_true (key x), fun y hy => ?_⟩, hothers⟩
  exact beq_eq_false_iff_ne.mpr (hothers y (List.mem_append_left post hy))

end Keys

theorem Edit.onFirst_eq_none (e : Edit σ α) (h : ∀ x ∈ xs, picks x = false) :
    Edit.onFirst picks e xs = none := by
  induction xs with
  | nil => rfl
  | cons x xs ih =>
    have hx : picks x = false := h x List.mem_cons_self
    simp [Edit.onFirst, hx, ih fun z hz => h z (List.mem_cons_of_mem _ hz)]

end Rulebook
