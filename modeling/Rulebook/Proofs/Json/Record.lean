import Rulebook.Json.Record
import Rulebook.Proofs.Json.Members

/-!
# What a form makes of a record

A form tells for each mistake in a record where it stands. Here only records without mistakes
matter, and what a form makes of them can be said field by field: no field comes twice, and each
reader gets the part that stands under the name of its field, or nothing.

* `Rulebook.Form.read_seq_eq_ok_iff`, `Rulebook.Form.read_required_eq_ok_iff`,
  `Rulebook.Form.read_defaulted_eq_ok_iff` – what a form makes of the parts of a record, by the way
  it is put together;
* `Rulebook.Form.decode_members_eq_ok_iff`, `Rulebook.Form.decode_items_eq_ok_iff` – which parts
  a record with members and one with items has;
* `Rulebook.Form.Reads` – forms that **read a value from members**;
* `Rulebook.Form.Respects` – forms that **make the same of parts that are related**, and what they
  make of records that have related parts, in any order and among others.
-/

namespace Rulebook

variable {δ ε α β : Type}

theorem applyUnlessMistaken_eq_ok_iff {f : Except Mistake (α → β)} {x : Except Mistake α} {b : β} :
    applyUnlessMistaken f x = .ok b ↔ ∃ g a, f = .ok g ∧ x = .ok a ∧ g a = b := by
  cases f <;> cases x <;> simp [applyUnlessMistaken]

/-- A test that comes first has to be passed. -/
theorem applyUnlessMistaken_map_eq_ok_iff {test : Except Mistake Unit} {x : Except Mistake α}
    {a : α} :
    applyUnlessMistaken ((fun _ a => a) <$> test) x = .ok a ↔ test = .ok () ∧ x = .ok a := by
  cases test <;> cases x <;> simp [applyUnlessMistaken, Functor.map, Except.map]

theorem bind_eq_ok_iff {γ : Type} {x : Except γ α} {f : α → Except γ β} {b : β} :
    x >>= f = .ok b ↔ ∃ a, x = .ok a ∧ f a = .ok b := by
  cases x <;> simp [bind, Except.bind]

theorem mapError_eq_ok_iff {γ ε' : Type} {x : Except γ α} {f : γ → ε'} {a : α} :
    x.mapError f = .ok a ↔ x = .ok a := by
  cases x <;> simp [Except.mapError]

/-- The parts that a record is made of. -/
def Outline.parts : Outline δ → List δ
  | .members ms _ => ms.map Prod.snd
  | .items ds _ => ds

/-- The part that is a field. -/
def Slots.part? (s : Slots δ) (name : String) : Option δ := (s.find? name).map Prod.snd

namespace Form

/-! ### Fields -/

section Fields

variable {s : Slots δ} {a : α} {b : β} {name : String} {decode : δ → Decoded α}

theorem read_seq_eq_ok_iff {f : Form δ (α → β)} {x : Form δ α} :
    (f <*> x).read s = .ok b ↔ ∃ g a, f.read s = .ok g ∧ x.read s = .ok a ∧ g a = b :=
  applyUnlessMistaken_eq_ok_iff

theorem read_map_eq_ok_iff {f : α → β} {x : Form δ α} :
    (f <$> x).read s = .ok b ↔ ∃ a, x.read s = .ok a ∧ f a = b := by
  have hpure : (f <$> x).read s = applyUnlessMistaken (.ok f) (x.read s) := rfl
  rw [hpure, applyUnlessMistaken_eq_ok_iff]
  simp

theorem read_field_eq_ok_iff {n : FieldName} {absent : Mistake → Except Mistake α} :
    (field n decode absent).read s = .ok a ↔
      (∃ d, s.part? n.name = some d ∧ decode d = .ok a) ∨
        (s.part? n.name = none ∧ absent (s.absent n.name) = .ok a) := by
  unfold field Slots.part?
  rcases hfind : s.find? n.name with _ | ⟨i, d⟩
  · simp [hfind]
  · cases hd : decode d <;> simp [hfind, Except.mapError, hd]

theorem read_required_eq_ok_iff :
    (required name decode).read s = .ok a ↔ ∃ d, s.part? name = some d ∧ decode d = .ok a := by
  rw [required, read_field_eq_ok_iff]
  simp

theorem read_defaulted_eq_ok_iff {value : α} :
    (defaulted name decode value).read s = .ok a ↔
      (∃ d, s.part? name = some d ∧ decode d = .ok a) ∨ (s.part? name = none ∧ value = a) := by
  rw [defaulted, read_field_eq_ok_iff]
  simp

end Fields

/-! ### Records -/

section Records

variable {form : Form δ α} {names : List FieldName} {title : String}
  {excess : Nat → Nat → DecodeError} {a : α} {name : String}

/-- The names that fields are declared with. -/
def fieldNames (names : List FieldName) : List String := names.map FieldName.name

/-- No field has a second name. -/
def Plain (names : List FieldName) : Prop := ∀ f ∈ names, f.others = []

instance (names : List FieldName) : Decidable (Plain names) :=
  inferInstanceAs (Decidable (∀ f ∈ names, f.others = []))

theorem canonical?_eq_some_iff (h : Plain names) {written : String} :
    canonical? names written = some name ↔ written = name ∧ name ∈ fieldNames names := by
  have hmeans : ∀ n ∈ names, (n.name == written || n.others.contains written) = true ↔
      n.name = written := by
    intro n hn
    simp [h n hn]
  rw [canonical?, Option.map_eq_some_iff]
  constructor
  · rintro ⟨n, hfind, rfl⟩
    have hn := List.mem_of_find?_eq_some hfind
    have hpicked := List.find?_some hfind
    exact ⟨((hmeans n hn).1 hpicked).symm, List.mem_map_of_mem hn⟩
  · rintro ⟨rfl, hname⟩
    obtain ⟨n, hn, hwritten⟩ := List.mem_map.1 hname
    cases hfind : names.find? fun n => n.name == written || n.others.contains written with
    | none => exact absurd ((hmeans n hn).2 hwritten) (List.find?_eq_none.1 hfind n hn)
    | some n' =>
      have hpicked := List.find?_some hfind
      exact ⟨n', rfl, (hmeans n' (List.mem_of_find?_eq_some hfind)).1 hpicked⟩

/-- What is known of the fields of a record with members. -/
def memberSlots (names : List FieldName) (ms : List (Option String × δ)) : Slots δ :=
  ⟨fun name => locate names name 0 ms, fun name => ⟨ms.length + 1, .missingField name⟩⟩

/-- What is known of the fields of a record with items. -/
def itemSlots (title : String) (names : List FieldName) (ds : List δ) : Slots δ :=
  ⟨fun name => ds[place names name]?.map fun d => (place names name, d), fun name =>
    ⟨place names name,
      .wrongLength (place names name) (title ++ " with " ++ elements names.length)⟩⟩

theorem part?_memberSlots (h : Plain names) (hname : name ∈ fieldNames names)
    (ms : List (Option String × δ)) :
    (memberSlots names ms).part? name = (valuesOf (some name) ms).head? := by
  have key : ∀ i, (locate names name i ms).map Prod.snd = (valuesOf (some name) ms).head? := by
    induction ms with
    | nil => intro i; rfl
    | cons m ms ih =>
      intro i
      obtain ⟨written, d⟩ := m
      have hmeans : written.bind (canonical? names) = some name ↔ written = some name := by
        cases written with
        | none => simp
        | some w => simp [canonical?_eq_some_iff h, hname]
      by_cases hw : written = some name
      · rw [locate, if_pos (hmeans.2 hw), hw, valuesOf_cons_self]
        rfl
      · rw [locate, if_neg fun hb => hw (hmeans.1 hb), valuesOf_cons_of_ne hw, ih]
  exact key 0

theorem mem_of_part?_memberSlots {ms : List (Option String × δ)} {d : δ}
    (h : (memberSlots names ms).part? name = some d) : d ∈ ms.map Prod.snd := by
  have key : ∀ i, (locate names name i ms).map Prod.snd = some d → d ∈ ms.map Prod.snd := by
    clear h
    induction ms with
    | nil => nofun
    | cons m ms ih =>
      obtain ⟨written, e⟩ := m
      intro i h
      rw [locate] at h
      split at h
      · obtain rfl : e = d := Option.some.inj h
        exact List.mem_cons_self
      · exact List.mem_cons_of_mem _ (ih _ h)
  exact key 0 h

@[simp] theorem part?_itemSlots (ds : List δ) :
    (itemSlots title names ds).part? name = ds[place names name]? := by
  simp [itemSlots, Slots.part?, Function.comp_def]

/-- Members are put together as they should be if all their names can be read and no field comes
twice, the ones that were there before included. -/
theorem misplaced_eq_ok_iff (h : Plain names) {i : Nat} {seen : List String}
    {ms : List (Option String × δ)} :
    misplaced names true i seen ms = .ok () ↔
      (∀ m ∈ ms, m.1 ≠ none) ∧ ∀ name ∈ fieldNames names,
        (valuesOf (some name) ms).length + (if name ∈ seen then 1 else 0) ≤ 1 := by
  induction ms generalizing i seen with
  | nil =>
    have hone : ∀ name : String, (if name ∈ seen then 1 else 0) ≤ 1 := fun name => by split <;> simp
    simp [misplaced, hone]
  | cons m ms ih =>
    obtain ⟨written | w, d⟩ := m
    · simp [misplaced]
    have hnames : (∀ m ∈ (some w, d) :: ms, m.1 ≠ none) ↔ ∀ m ∈ ms, m.1 ≠ none := by simp
    rw [misplaced, hnames]
    cases hw : canonical? names w with
    | none =>
      change misplaced names true (i + 1) seen ms = .ok () ↔ _
      rw [ih]
      refine and_congr_right fun _ => forall₂_congr fun name hname => ?_
      rw [valuesOf_cons_of_ne]
      rintro heq
      obtain rfl := Option.some.inj heq
      exact absurd ((canonical?_eq_some_iff h).2 ⟨rfl, hname⟩) (by simp [hw])
    | some field =>
      obtain ⟨rfl, hfield⟩ := (canonical?_eq_some_iff h).1 hw
      by_cases hseen : w ∈ seen
      · have hcontains : seen.contains w = true := by simpa using hseen
        simp only [hcontains, if_true, reduceCtorEq, false_iff, not_and, not_forall]
        intro _
        exact ⟨w, hfield, by simp [hseen]⟩
      · have hcontains : ¬seen.contains w = true := by simpa using hseen
        simp only [hcontains, if_false, Bool.false_eq_true]
        rw [ih]
        refine and_congr_right fun _ => forall₂_congr fun name _ => ?_
        -- The field counts as seen from here on instead of standing in the list.
        by_cases hname : w = name
        · subst hname
          simp [hseen]
        · rw [valuesOf_cons_of_ne (by simpa using hname)]
          simp [Ne.symm hname]

theorem valuesOf_some_map {ms : List (String × ε)} (enter : ε → δ) (name : String) :
    valuesOf (some name) (ms.map (Prod.map some enter)) = (valuesOf name ms).map enter :=
  valuesOf_map (fun _ _ => Option.some.inj) enter

/-- **What is made of members** with names: no field comes twice, and each reader gets what stands
under the name of its field. -/
theorem decode_members_eq_ok_iff (h : Plain form.names) {ms : List (String × ε)} {enter : ε → δ} :
    form.decode title excess (.members (ms.map (Prod.map some enter)) true) = .ok a ↔
      (∀ name ∈ fieldNames form.names, (valuesOf name ms).length ≤ 1) ∧
        form.read (memberSlots form.names (ms.map (Prod.map some enter))) = .ok a := by
  have hnamed : ∀ m ∈ ms.map (Prod.map some enter), m.1 ≠ none := by
    intro m hm
    obtain ⟨m', -, rfl⟩ := List.mem_map.1 hm
    exact Option.some_ne_none _
  have hmisplaced : misplaced form.names true 0 [] (ms.map (Prod.map some enter)) = .ok () ↔
      ∀ name ∈ fieldNames form.names, (valuesOf name ms).length ≤ 1 := by
    rw [misplaced_eq_ok_iff h, and_iff_right hnamed]
    simp [valuesOf_some_map]
  rw [← hmisplaced, decode, mapError_eq_ok_iff, readMembers, applyUnlessMistaken_map_eq_ok_iff]
  rfl

/-- **What is made of items**: there are not too many, and each reader gets the item in the place
of its field. -/
theorem decode_items_eq_ok_iff {ds : List δ} :
    form.decode title excess (.items ds true) = .ok a ↔
      ds.length ≤ form.names.length ∧ form.read (itemSlots title form.names ds) = .ok a := by
  rw [decode, mapError_eq_ok_iff, readItems, applyUnlessMistaken_map_eq_ok_iff]
  refine and_congr ?_ Iff.rfl
  by_cases hmany : form.names.length < ds.length
  · simp [hmany, Nat.not_le.2 hmany]
  · simp [hmany, Nat.not_lt.1 hmany]

/-- **What is made of a record is made of its parts.** -/
theorem exists_read_of_decode {outline : Outline δ}
    (h : form.decode title excess outline = .ok a) :
    ∃ s : Slots δ, form.read s = .ok a ∧
      ∀ name d, s.part? name = some d → d ∈ outline.parts := by
  cases outline with
  | members ms closed =>
    rw [decode, mapError_eq_ok_iff, readMembers, applyUnlessMistaken_map_eq_ok_iff] at h
    exact ⟨memberSlots form.names ms, h.2, fun name d => mem_of_part?_memberSlots⟩
  | items ds closed =>
    rw [decode, mapError_eq_ok_iff, readItems, applyUnlessMistaken_map_eq_ok_iff] at h
    refine ⟨itemSlots title form.names ds, h.2, fun name d hd => ?_⟩
    rw [part?_itemSlots] at hd
    exact List.mem_of_getElem? hd

end Records

/-! ### Reading from members -/

/-- **A form that reads a value from members**: it makes the value of what stands under the names of
its fields. -/
def Reads (enter : ε → δ) (ms : List (String × ε)) (form : Form δ α) (a : α) : Prop :=
  ∀ s : Slots δ, (∀ name ∈ fieldNames form.names,
    s.part? name = (valuesOf name ms).head?.map enter) → form.read s = .ok a

namespace Reads

variable {enter : ε → δ} {ms : List (String × ε)} {name : String} {decode : δ → Decoded α} {a : α}

theorem seq {f : Form δ (α → β)} {x : Form δ α} {g : α → β} {b : β} (hf : Reads enter ms f g)
    (hx : Reads enter ms x a) (hb : g a = b) : Reads enter ms (f <*> x) b := by
  intro s hparts
  have hnames : fieldNames (f <*> x).names = fieldNames f.names ++ fieldNames x.names :=
    List.map_append
  rw [hnames] at hparts
  obtain ⟨hpf, hpx⟩ := List.forall_mem_append.1 hparts
  exact read_seq_eq_ok_iff.2 ⟨g, a, hf s hpf, hx s hpx, hb⟩

theorem map {x : Form δ α} {g : α → β} {b : β} (hx : Reads enter ms x a) (hb : g a = b) :
    Reads enter ms (g <$> x) b :=
  fun s hparts => read_map_eq_ok_iff.2 ⟨a, hx s hparts, hb⟩

theorem required {d : ε} {ds : List ε} (hvalue : valuesOf name ms = d :: ds)
    (h : decode (enter d) = .ok a) : Reads enter ms (Form.required name decode) a := by
  intro s hparts
  have hpart := hparts name (List.mem_singleton.2 rfl)
  rw [hvalue] at hpart
  exact read_required_eq_ok_iff.2 ⟨enter d, hpart, h⟩

theorem defaulted {d : ε} {ds : List ε} {value : α} (hvalue : valuesOf name ms = d :: ds)
    (h : decode (enter d) = .ok a) : Reads enter ms (Form.defaulted name decode value) a := by
  intro s hparts
  have hpart := hparts name (List.mem_singleton.2 rfl)
  rw [hvalue] at hpart
  exact read_defaulted_eq_ok_iff.2 (Or.inl ⟨enter d, hpart, h⟩)

theorem defaulted_of_absent (hvalue : valuesOf name ms = []) :
    Reads enter ms (Form.defaulted name decode a) a := by
  intro s hparts
  have hpart := hparts name (List.mem_singleton.2 rfl)
  rw [hvalue] at hpart
  exact read_defaulted_eq_ok_iff.2 (Or.inr ⟨hpart, rfl⟩)

/-- **What is made of members** with different names. -/
theorem decode_members {form : Form δ α} {title : String} {excess : Nat → Nat → DecodeError}
    (h : Reads enter ms form a) (hplain : Plain form.names) (hnames : (ms.map Prod.fst).Nodup) :
    form.decode title excess (.members (ms.map (Prod.map some enter)) true) = .ok a := by
  rw [decode_members_eq_ok_iff hplain]
  refine ⟨fun name _ => length_valuesOf_le_one hnames name, h _ fun name hname => ?_⟩
  rw [part?_memberSlots hplain hname, valuesOf_some_map, List.head?_map]

end Reads

/-! ### Related parts -/

theorem rel_getElem? {R : δ → ε → Prop} {ds : List δ} {es : List ε} (h : List.Forall₂ R ds es)
    (i : Nat) : Option.Rel R ds[i]? es[i]? := by
  induction h generalizing i with
  | nil => exact .none
  | cons hd _ ih =>
    cases i with
    | zero => exact .some hd
    | succ i => simpa using ih i

/-- **A form that makes the same of related parts.** -/
def Respects (R : δ → δ → Prop) (form : Form δ α) : Prop :=
  ∀ s t : Slots δ, (∀ name ∈ fieldNames form.names, Option.Rel R (s.part? name) (t.part? name)) →
    ∀ a, form.read s = .ok a ↔ form.read t = .ok a

namespace Respects

variable {R : δ → δ → Prop} {decode : δ → Decoded α}

theorem seq {f : Form δ (α → β)} {x : Form δ α} (hf : f.Respects R) (hx : x.Respects R) :
    (f <*> x).Respects R := by
  intro s t hparts b
  have hnames : fieldNames (f <*> x).names = fieldNames f.names ++ fieldNames x.names :=
    List.map_append
  rw [hnames] at hparts
  obtain ⟨hpf, hpx⟩ := List.forall_mem_append.1 hparts
  simp only [read_seq_eq_ok_iff, hf s t hpf, hx s t hpx]

theorem map {x : Form δ α} (hx : x.Respects R) (f : α → β) : (f <$> x).Respects R := by
  intro s t hparts b
  simp only [read_map_eq_ok_iff, hx s t hparts]

/-- A field, if what stands for its absence does not depend on the mistake that this would be. -/
theorem field (name : FieldName) {absent : Mistake → Except Mistake α}
    (h : ∀ d d', R d d' → ∀ a, decode d = .ok a ↔ decode d' = .ok a)
    (habsent : ∀ m m' a, absent m = .ok a ↔ absent m' = .ok a) :
    (Form.field name decode absent).Respects R := by
  intro s t hparts a
  have hpart := hparts name.name (List.mem_singleton.2 rfl)
  rw [read_field_eq_ok_iff, read_field_eq_ok_iff, habsent (s.absent name.name) (t.absent name.name)]
  generalize s.part? name.name = p, t.part? name.name = q at hpart
  cases hpart with
  | none => simp
  | some hd => simp [h _ _ hd]

theorem required (name : String) (h : ∀ d d', R d d' → ∀ a, decode d = .ok a ↔ decode d' = .ok a) :
    (Form.required name decode).Respects R :=
  field ⟨name, []⟩ h (by simp)

theorem defaulted (name : String) (value : α)
    (h : ∀ d d', R d d' → ∀ a, decode d = .ok a ↔ decode d' = .ok a) :
    (Form.defaulted name decode value).Respects R :=
  field ⟨name, []⟩ h (by simp)

variable {form : Form δ α} {title : String} {excess : Nat → Nat → DecodeError} {enter : ε → δ}

/-- **What is made of members** follows from what stands under the names of the fields, up to the
relation. -/
theorem decode_members (h : form.Respects R) (hplain : Plain form.names)
    {ms ms' : List (String × ε)} (hvalues : ∀ name ∈ fieldNames form.names,
      List.Forall₂ (fun d d' => R (enter d) (enter d')) (valuesOf name ms) (valuesOf name ms'))
    (a : α) :
    form.decode title excess (.members (ms.map (Prod.map some enter)) true) = .ok a ↔
      form.decode title excess (.members (ms'.map (Prod.map some enter)) true) = .ok a := by
  rw [decode_members_eq_ok_iff hplain, decode_members_eq_ok_iff hplain]
  refine and_congr (forall₂_congr fun name hname => ?_) (h _ _ (fun name hname => ?_) a)
  · rw [(hvalues name hname).length_eq]
  · rw [part?_memberSlots hplain hname, part?_memberSlots hplain hname, valuesOf_some_map,
      valuesOf_some_map]
    have hmap : List.Forall₂ R ((valuesOf name ms).map enter) ((valuesOf name ms').map enter) :=
      List.forall₂_map_left_iff.2 (List.forall₂_map_right_iff.2 (hvalues name hname))
    rw [List.head?_eq_getElem?, List.head?_eq_getElem?]
    exact rel_getElem? hmap 0

/-- **What is made of items** follows from the items, up to the relation. -/
theorem decode_items (h : form.Respects R) {ds ds' : List δ} (hitems : List.Forall₂ R ds ds')
    (a : α) :
    form.decode title excess (.items ds true) = .ok a ↔
      form.decode title excess (.items ds' true) = .ok a := by
  rw [decode_items_eq_ok_iff, decode_items_eq_ok_iff, hitems.length_eq]
  refine and_congr_right fun _ => h _ _ (fun name _ => ?_) a
  rw [part?_itemSlots, part?_itemSlots]
  exact rel_getElem? hitems _

end Respects

end Form

end Rulebook
