import Mathlib.Data.List.Forall2
import Rulebook.Keyed

/-!
# Members under a name

A record is a list of values with names. A reader of records asks for the values under a name and
is not to see where they stand, so a list of members is described here by what stands **under each
name**.

* `Rulebook.valuesOf` – the values under a name, in their order;
* `Rulebook.valuesOf_map`, `Rulebook.valuesOf_filter_ne` – what it sees of a list whose values are
  changed, or from which another name is taken out;
* `Rulebook.valuesOf_eq_of_perm` – it sees nothing of the order of the members if no name comes
  twice;
* `Rulebook.Keyed.gather_perm` – putting items in the order of their keys only moves them about,
  if no key comes twice.
-/

namespace Rulebook

/-! ### Lists related one by one -/

/-- Lists that are related one by one, the first of them having a property at every item. -/
theorem forall₂_imp_of_mem {α β : Type} {R S : α → β → Prop} {xs : List α} {ys : List β}
    (h : List.Forall₂ R xs ys) (himp : ∀ x ∈ xs, ∀ y, R x y → S x y) : List.Forall₂ S xs ys :=
  ((List.forall₂_and_left xs ys).2 ⟨himp, h⟩).imp fun _ y hxy => hxy.1 y hxy.2

/-- What is said one by one of related items is said of the ones and of the others. -/
theorem forall₂_congr_left {α β : Type} {R : α → α → Prop} {S : α → β → Prop} {xs xs' : List α}
    {ys : List β} (h : List.Forall₂ R xs xs') (hiff : ∀ x x' y, R x x' → (S x y ↔ S x' y)) :
    List.Forall₂ S xs ys ↔ List.Forall₂ S xs' ys := by
  induction h generalizing ys with
  | nil => exact Iff.rfl
  | cons hx _ ih =>
    cases ys with
    | nil => simp
    | cons y ys => rw [List.forall₂_cons, List.forall₂_cons, hiff _ _ y hx, ih]

/-- Every item is related to one of the other list. -/
theorem exists_of_forall₂ {α β : Type} {R : α → β → Prop} {xs : List α} {ys : List β}
    (h : List.Forall₂ R xs ys) : ∀ x ∈ xs, ∃ y ∈ ys, R x y := by
  induction h with
  | nil => nofun
  | @cons x y xs ys hxy _ ih =>
    refine List.forall_mem_cons.2 ⟨⟨y, List.mem_cons_self, hxy⟩, fun z hz => ?_⟩
    obtain ⟨w, hw, hzw⟩ := ih z hz
    exact ⟨w, List.mem_cons_of_mem _ hw, hzw⟩

/-! ### The values under a name -/

section

variable {κ ι δ ε : Type} [DecidableEq κ] [DecidableEq ι] {name other : κ} {ms ms' : List (κ × δ)}
  {d : δ}

/-- **The values under a name.** -/
def valuesOf (name : κ) (ms : List (κ × δ)) : List δ :=
  ms.filterMap fun m => if m.1 = name then some m.2 else none

@[simp] theorem valuesOf_nil : valuesOf name ([] : List (κ × δ)) = [] := rfl

theorem valuesOf_cons : valuesOf name ((other, d) :: ms) =
    if other = name then d :: valuesOf name ms else valuesOf name ms := by
  by_cases h : other = name <;> simp [valuesOf, h]

@[simp] theorem valuesOf_cons_self : valuesOf name ((name, d) :: ms) = d :: valuesOf name ms := by
  simp [valuesOf_cons]

theorem valuesOf_cons_of_ne (h : other ≠ name) :
    valuesOf name ((other, d) :: ms) = valuesOf name ms := by
  simp [valuesOf_cons, h]

@[simp] theorem valuesOf_append :
    valuesOf name (ms ++ ms') = valuesOf name ms ++ valuesOf name ms' := by
  simp [valuesOf]

theorem mem_valuesOf : d ∈ valuesOf name ms ↔ (name, d) ∈ ms := by
  unfold valuesOf
  rw [List.mem_filterMap]
  constructor
  · rintro ⟨⟨k, e⟩, hm, h⟩
    simp only [Option.ite_none_right_eq_some, Option.some.injEq] at h
    obtain ⟨rfl, rfl⟩ := h
    exact hm
  · intro h
    exact ⟨_, h, by simp⟩

/-- Nothing stands under a name that no member has. -/
theorem valuesOf_eq_nil (h : ∀ m ∈ ms, m.1 ≠ name) : valuesOf name ms = [] := by
  rw [List.eq_nil_iff_forall_not_mem]
  intro d hd
  exact h _ (mem_valuesOf.1 hd) rfl

/-- The other names are not touched when a name is taken out. -/
theorem valuesOf_filter_ne (h : name ≠ other) :
    valuesOf name (ms.filter fun m => m.1 ≠ other) = valuesOf name ms := by
  unfold valuesOf
  rw [List.filterMap_filter]
  refine List.filterMap_congr fun m _ => ?_
  by_cases hm : m.1 = name <;> simp [hm, h]

/-- Names and values changed: under a name stand the values, changed, that stood under it before,
if no two names become one. -/
theorem valuesOf_map {f : κ → ι} (hf : Function.Injective f) (g : δ → ε) :
    valuesOf (f name) (ms.map (Prod.map f g)) = (valuesOf name ms).map g := by
  unfold valuesOf
  rw [List.filterMap_map, List.map_filterMap]
  refine List.filterMap_congr fun m _ => ?_
  by_cases hm : m.1 = name <;> simp [hm, hf.eq_iff]

/-- If no name comes twice there is at most one value under each. -/
theorem length_valuesOf_le_one (h : (ms.map Prod.fst).Nodup) (name : κ) :
    (valuesOf name ms).length ≤ 1 := by
  induction ms with
  | nil => simp
  | cons m ms ih =>
    obtain ⟨k, d⟩ := m
    obtain ⟨hk, hms⟩ := List.nodup_cons.1 h
    by_cases hname : k = name
    · have hnone : valuesOf name ms = [] :=
        valuesOf_eq_nil fun m hm heq => hk (List.mem_map.2 ⟨m, hm, by rw [heq, hname]⟩)
      simp [hname, hnone]
    · rw [valuesOf_cons_of_ne hname]
      exact ih hms

/-- The order of the members is not seen where a name comes once at most. -/
theorem valuesOf_eq_of_perm (h : ms.Perm ms') (hone : (valuesOf name ms).length ≤ 1) :
    valuesOf name ms' = valuesOf name ms := by
  have hperm : (valuesOf name ms).Perm (valuesOf name ms') := h.filterMap _
  rcases hvalues : valuesOf name ms with _ | ⟨d, _ | ⟨d', ds⟩⟩
  · rw [hvalues] at hperm
    exact hperm.symm.eq_nil
  · rw [hvalues] at hperm
    exact List.perm_singleton.1 hperm.symm
  · simp [hvalues] at hone

/-- Neither is it seen among members with other names. -/
theorem valuesOf_eq_of_perm_append {added : List (κ × δ)} (h : ms'.Perm (ms ++ added))
    (hone : (valuesOf name ms).length ≤ 1) (hadded : ∀ m ∈ added, m.1 ≠ name) :
    valuesOf name ms' = valuesOf name ms := by
  have happ : valuesOf name (ms ++ added) = valuesOf name ms := by
    rw [valuesOf_append, valuesOf_eq_nil hadded, List.append_nil]
  rw [valuesOf_eq_of_perm h.symm (happ ▸ hone), happ]

end

/-! ### Putting items in order -/

namespace Keyed

variable {α : Type} {key : α → String}

/-- An item with a new key is put somewhere among the others. -/
theorem put_perm {x : α} {xs : List α} (h : ∀ y ∈ xs, key x ≠ key y) :
    (put key x xs).Perm (x :: xs) := by
  induction xs with
  | nil => exact .refl _
  | cons y ys ih =>
    unfold put
    split
    · exact .refl _
    · rw [if_neg (h y List.mem_cons_self)]
      exact ((ih fun z hz => h z (List.mem_cons_of_mem _ hz)).cons y).trans (.swap x y ys)

theorem extend_perm {xs items : List α} (h : ((xs ++ items).map key).Nodup) :
    (extend key xs items).Perm (xs ++ items) := by
  induction items generalizing xs with
  | nil => simp [extend]
  | cons x items ih =>
    have hmove : (x :: xs ++ items).Perm (xs ++ x :: items) := List.perm_middle.symm
    have hnew : ∀ y ∈ xs, key x ≠ key y := by
      intro y hy heq
      have hnodup := (hmove.map key).nodup_iff.2 h
      exact (List.nodup_cons.1 hnodup).1
        (List.mem_map.2 ⟨y, List.mem_append_left items hy, heq.symm⟩)
    have hput : (put key x xs ++ items).Perm (xs ++ x :: items) :=
      ((put_perm hnew).append_right items).trans hmove
    exact (ih ((hput.map key).nodup_iff.2 h)).trans hput

/-- What is gathered comes from the list it is gathered from. -/
theorem mem_of_mem_gather {x : α} {items : List α} (h : x ∈ gather key items) : x ∈ items := by
  have hextend : ∀ xs : List α, x ∈ extend key xs items → x ∈ xs ∨ x ∈ items := by
    clear h
    induction items with
    | nil => exact fun xs hx => Or.inl hx
    | cons y items ih =>
      intro xs hx
      rcases ih (put key y xs) hx with hx | hx
      · rcases mem_of_mem_put hx with rfl | hx
        · exact Or.inr List.mem_cons_self
        · exact Or.inl hx
      · exact Or.inr (List.mem_cons_of_mem _ hx)
  exact (hextend [] h).resolve_left List.not_mem_nil

/-- **Gathering only moves items about** if no key comes twice. -/
theorem gather_perm {items : List α} (h : (items.map key).Nodup) :
    (gather key items).Perm items := by
  have hextend : (extend key [] items).Perm ([] ++ items) := extend_perm h
  exact hextend

end Keyed

end Rulebook
