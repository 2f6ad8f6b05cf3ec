import Rulebook.Proofs.Rule.Node

/-!
# Rules are decoded without regard to order

What is decoded as a rule is the same for values that are alike. A part of a node is looked at in
three ways, as a value, as a rule and as a list of rules, and parts are alike if they are in all
three; a node whose members or items are alike makes the same rule, and so the parts of values that
are alike are alike, from the leaves up.

* `Rulebook.Rule.Part.Alike` – parts that cannot be told apart;
* `Rulebook.Rule.part_alike` – **the parts of values that are alike**;
* `Rulebook.Rule.orderFree_decode` – the same at the top of a rule.
-/

namespace Rulebook

/-! ### Values -/

section Values

variable {j j' : Json}

theorem Scalar.ofJson_eq_of_alike (h : j.Alike j') : Scalar.ofJson j = Scalar.ofJson j' := by
  rcases h.cases with rfl | ⟨items, items', rfl, rfl, -⟩ | ⟨members, members', rfl, rfl, -⟩ <;> rfl

theorem Operand.ofJson_eq_of_alike (h : j.Alike j') : Operand.ofJson j = Operand.ofJson j' := by
  rcases h.cases with rfl | ⟨items, items', rfl, rfl, hitems⟩ | ⟨members, members', rfl, rfl, -⟩
  · rfl
  · have hmap : items.mapM Scalar.ofJson = items'.mapM Scalar.ofJson := by
      clear h
      induction hitems with
      | nil => rfl
      | cons hj _ ih => rw [List.mapM_cons, List.mapM_cons, Scalar.ofJson_eq_of_alike hj, ih]
    rw [ofJson, ofJson, hmap]
  · rfl

theorem Operand.optionOfJson_eq_of_alike (h : j.Alike j') :
    Operand.optionOfJson j = Operand.optionOfJson j' := by
  have hsome : some <$> Operand.ofJson j = some <$> Operand.ofJson j' := by
    rw [Operand.ofJson_eq_of_alike h]
  rcases h.cases with rfl | ⟨items, items', rfl, rfl, -⟩ | ⟨members, members', rfl, rfl, -⟩
  · rfl
  · exact hsome
  · exact hsome

theorem Decode.stringIn_of_alike (h : j.Alike j') (s : String) :
    stringIn j = .ok s ↔ stringIn j' = .ok s := by
  rcases h.cases with rfl | ⟨items, items', rfl, rfl, -⟩ | ⟨members, members', rfl, rfl, -⟩
  · rfl
  · simp [stringIn]
  · simp [stringIn]

/-- A name in a value that was read before stands alone there, with nothing as its value. -/
theorem Decode.nameIn_object_eq_ok_iff {α : Type} {table : List (String × α)}
    {members : List (String × Json)} {a : α} :
    nameIn table (.object members) = .ok a ↔
      ∃ s i, members = [(s, i)] ∧ named table s = .ok a ∧ (i = .null ∨ i = .object []) := by
  rcases members with _ | ⟨⟨s, i⟩, _ | ⟨m, members⟩⟩
  · simp [nameIn]
  · cases hs : named table s with
    | error e => simp [nameIn, hs, bind, Except.bind]
    | ok b =>
      rcases i with _ | b | i | x | s' | items | _ | ⟨m, members⟩ <;>
        simp [nameIn, hs, bind, Except.bind, pure, Except.pure]
  · simp [nameIn]

theorem Decode.nameIn_of_alike {α : Type} {table : List (String × α)} (h : j.Alike j') (a : α) :
    nameIn table j = .ok a ↔ nameIn table j' = .ok a := by
  have himp : ∀ {i i' : Json}, i.Alike i' → nameIn table i = .ok a → nameIn table i' = .ok a := by
    intro i i' h hrun
    rcases h.cases with rfl | ⟨items, items', rfl, rfl, -⟩ | ⟨members, members', rfl, rfl, hmembers⟩
    · exact hrun
    · cases hrun
    · rw [nameIn_object_eq_ok_iff] at hrun ⊢
      obtain ⟨s, i, rfl, hs, hi⟩ := hrun
      obtain ⟨i', rfl, hi'⟩ := hmembers.of_singleton
      refine ⟨s, i', rfl, hs, ?_⟩
      rcases hi with rfl | rfl
      · exact Or.inl hi'.eq_null
      · exact Or.inr hi'.eq_object_nil
  exact ⟨himp h, himp h.symm⟩

end Values

namespace Rule

/-! ### Kinds -/

section Kinds

variable {j j' : Json} (h : j.Alike j') (k : NodeKind)

include h

theorem innerKind_part_of_alike : innerKind (part j) = .ok k ↔ innerKind (part j') = .ok k := by
  rw [innerKind, innerKind, json_part, json_part]
  rcases h.cases with rfl | ⟨items, items', rfl, rfl, -⟩ | ⟨members, members', rfl, rfl, -⟩ <;> simp

theorem topKind_ofJson_of_alike :
    topKind (.ofJson j) = .ok k ↔ topKind (.ofJson j') = .ok k := by
  rcases h.cases with rfl | ⟨items, items', rfl, rfl, -⟩ | ⟨members, members', rfl, rfl, -⟩ <;>
    simp [topKind, Document.ofJson]

end Kinds

/-! ### Nodes -/

/-- **Parts that cannot be told apart** by what is made of them. -/
structure Part.Alike (p q : Part) : Prop where
  /-- As values they are alike. -/
  json : p.json.Alike q.json
  /-- They are the same rule, or none. -/
  rule (r : Rule) : p.rule = .ok r ↔ q.rule = .ok r
  /-- They list the same rules, or none. -/
  rules (rs : List Rule) : p.rules = .ok rs ↔ q.rules = .ok rs

theorem respects_form (kind : NodeKind) : (form kind).Respects Part.Alike := by
  rcases kind with c | - | -
  · exact (Form.Respects.required "children" fun p q h => h.rules).map _
  · exact (Form.Respects.required "child" fun p q h => h.rule).map _
  · have hop : (Form.required "operator" fun p : Part =>
        Decode.nameIn Operator.table p.json).Respects Part.Alike :=
      .required _ fun p q h => Decode.nameIn_of_alike h.json
    have hkey : (Form.required "fieldKey" fun p : Part =>
        Decode.stringIn p.json).Respects Part.Alike :=
      .required _ fun p q h => Decode.stringIn_of_alike h.json
    have hvalue : (Form.defaulted "value" (fun p : Part =>
        Operand.optionOfJson p.json) none).Respects Part.Alike :=
      .defaulted _ _ fun p q h v => by rw [Operand.optionOfJson_eq_of_alike h.json]
    exact (((hop.map _).seq hkey).seq hvalue).map _

section Nodes

variable {δ : Type} {kindOf : δ → Decoded NodeKind} {hold : δ → Decoded Part} {enter : Json → δ}
  {members members' : List (String × Json)} {items items' : List Json}

/-- **Members that are alike make the same node**, if the parts of their values are alike. -/
theorem ofMembers_of_alike (hhold : ∀ j, hold (enter j) = .ok (part j))
    (hkind : ∀ j j', j.Alike j' → ∀ k, kindOf (enter j) = .ok k ↔ kindOf (enter j') = .ok k)
    (h : Json.AlikeMembers members members')
    (hparts : ∀ m ∈ members, ∀ j, m.2.Alike j → (part m.2).Alike (part j)) (r : Rule) :
    ofMembers kindOf hold true (members.map (Prod.map some enter)) = .ok r ↔
      ofMembers kindOf hold true (members'.map (Prod.map some enter)) = .ok r := by
  have hnode : ∀ k, ofOutline k (.members ((fieldMembers members).map (Prod.map some part)) true) =
      .ok r ↔ ofOutline k (.members ((fieldMembers members').map (Prod.map some part)) true) =
      .ok r := by
    intro k
    refine (respects_form k).decode_members (plain_form k) (fun name hname => ?_) r
    have hne : name ≠ kindField := fun heq => kindField_not_mem_fieldNames k (heq ▸ hname)
    rw [fieldMembers, fieldMembers, valuesOf_filter_ne hne, valuesOf_filter_ne hne]
    exact forall₂_imp_of_mem (h.valuesOf name) fun j hj => hparts _ (mem_valuesOf.1 hj)
  rw [ofMembers_eq_ok_iff hhold, ofMembers_eq_ok_iff hhold]
  refine exists_congr fun k => ?_
  have hvalues := h.valuesOf kindField
  constructor
  · rintro ⟨j, hj, hk, hr⟩
    rw [hj] at hvalues
    obtain ⟨j', _, hjj', hnil, hj'⟩ := List.forall₂_cons_left_iff.1 hvalues
    obtain rfl := List.forall₂_nil_left_iff.1 hnil
    exact ⟨j', hj', (hkind j j' hjj' k).1 hk, (hnode k).1 hr⟩
  · rintro ⟨j', hj', hk, hr⟩
    rw [hj'] at hvalues
    obtain ⟨j, _, hjj', hnil, hj⟩ := List.forall₂_cons_right_iff.1 hvalues
    obtain rfl := List.forall₂_nil_right_iff.1 hnil
    exact ⟨j, hj, (hkind j j' hjj' k).2 hk, (hnode k).2 hr⟩

/-- **Items that are alike make the same node**, if their parts are alike. -/
theorem ofItems_of_alike (hhold : ∀ j, hold (enter j) = .ok (part j))
    (hkind : ∀ j j', j.Alike j' → ∀ k, kindOf (enter j) = .ok k ↔ kindOf (enter j') = .ok k)
    (h : List.Forall₂ Json.Alike items items')
    (hparts : ∀ i ∈ items, ∀ j, i.Alike j → (part i).Alike (part j)) (r : Rule) :
    ofItems kindOf hold true (items.map enter) = .ok r ↔
      ofItems kindOf hold true (items'.map enter) = .ok r := by
  rw [ofItems_eq_ok_iff hhold, ofItems_eq_ok_iff hhold]
  refine exists_congr fun k => ?_
  cases h with
  | nil => exact Iff.rfl
  | @cons j j' rest rest' hj hrest =>
    have hparts' : List.Forall₂ Part.Alike (rest.map part) (rest'.map part) := by
      rw [List.forall₂_map_left_iff, List.forall₂_map_right_iff]
      exact forall₂_imp_of_mem hrest fun i hi => hparts i (List.mem_cons_of_mem _ hi)
    have hnode : ofOutline k (.items (rest.map part) true) = .ok r ↔
        ofOutline k (.items (rest'.map part) true) = .ok r :=
      (respects_form k).decode_items hparts' r
    constructor
    · rintro ⟨_, _, heq, hk, hr⟩
      cases heq
      exact ⟨j', rest', rfl, (hkind j j' hj k).1 hk, hnode.1 hr⟩
    · rintro ⟨_, _, heq, hk, hr⟩
      cases heq
      exact ⟨j, rest, rfl, (hkind j j' hj k).2 hk, hnode.2 hr⟩

end Nodes

theorem Part.Alike.refl {j : Json} (h : j.Distinct) : (part j).Alike (part j) :=
  ⟨by simpa using Json.Alike.refl h, fun _ => Iff.rfl, fun _ => Iff.rfl⟩

/-- **The parts of values that are alike** are alike. -/
theorem part_alike {j j' : Json} (h : j.Alike j') : (part j).Alike (part j') := by
  have hkind : ∀ i i', i.Alike i' → ∀ k, innerKind (part i) = .ok k ↔ innerKind (part i') = .ok k :=
    fun i i' hi k => innerKind_part_of_alike hi k
  induction j using Json.induction generalizing j' with
  | array items ih =>
    rcases h.cases with rfl | ⟨_, items', heq, rfl, hitems⟩ | ⟨_, _, heq, -⟩
    · exact .refl h.left
    · cases heq
      refine ⟨by simpa using h, fun r => ?_, fun rs => ?_⟩
      · rw [rule_part_array, rule_part_array]
        exact ofItems_of_alike (fun _ => rfl) hkind hitems (fun i hi i' => ih i hi) r
      · rw [rules_part_array_eq_ok_iff, rules_part_array_eq_ok_iff]
        have hparts : List.Forall₂ (fun i i' => (part i).Alike (part i')) items items' :=
          forall₂_imp_of_mem hitems fun i hi i' => ih i hi
        exact forall₂_congr_left hparts fun i i' r hi => hi.rule r
    · cases heq
  | object members ih =>
    rcases h.cases with rfl | ⟨_, _, heq, -⟩ | ⟨_, members', heq, rfl, hmembers⟩
    · exact .refl h.left
    · cases heq
    · cases heq
      refine ⟨by simpa using h, fun r => ?_, fun rs => ?_⟩
      · rw [rule_part_object, rule_part_object]
        exact ofMembers_of_alike (fun _ => rfl) hkind hmembers (fun m hm i => ih m hm) r
      · simp [part]
  | _ =>
    rcases h.cases with rfl | ⟨_, _, heq, -⟩ | ⟨_, _, heq, -⟩
    · exact .refl h.left
    · cases heq
    · cases heq

/-- **Rules are decoded without regard to order.** -/
theorem orderFree_decode : Decode.OrderFree decode := by
  rintro d d' ⟨j, j', hj, rfl, rfl⟩ r
  have hparts : ∀ i i' : Json, i.Alike i' → (part i).Alike (part i') := fun _ _ => part_alike
  have hkind : ∀ i i' : Json, i.Alike i' → ∀ k,
      topKind (.ofJson i) = .ok k ↔ topKind (.ofJson i') = .ok k :=
    fun i i' hi k => topKind_ofJson_of_alike hi k
  rcases hj.cases with rfl | ⟨items, items', rfl, rfl, hitems⟩ |
    ⟨members, members', rfl, rfl, hmembers⟩
  · exact Iff.rfl
  · rw [decode_array, decode_array]
    exact ofItems_of_alike hold_ofJson hkind hitems (fun i _ => hparts i) r
  · rw [decode_object, decode_object]
    exact ofMembers_of_alike hold_ofJson hkind hmembers (fun m _ => hparts m.2) r

end Rule

end Rulebook
