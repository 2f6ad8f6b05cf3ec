import Rulebook.Proofs.Json.Numbers
import Rulebook.Proofs.Number.Rounding
import Rulebook.Proofs.Rule.Respelled

/-!
# Numbers in rules that are decoded

A rule that is decoded from a value whose numbers fit has finite numbers only: an integer of 64 bits
is far from what is too large for a binary number, and the other numbers are taken as they are. So
the rules that can be had from a text are those whose forms say all of them.

* `Rulebook.Rule.Part.Finite` – parts from which finite numbers come;
* `Rulebook.Rule.finiteNumbers_of_decode` – **decoded rules have finite numbers**.
-/

namespace Rulebook

theorem InWords.natAbs_lt {i : Int} (h : InWords i) : i.natAbs < 2 ^ 64 := by
  have hlow : Int64.minValue.toInt = -2 ^ 63 := by decide
  have hhigh : (UInt64.size : Int) = 2 ^ 64 := rfl
  obtain ⟨hmin, hmax⟩ := h
  omega

/-! ### Values -/

theorem Scalar.finite_of_ofJson {j : Json} (hj : j.NumbersFit) {s : Scalar}
    (h : ofJson j = .ok s) : s.Finite := by
  rintro x rfl
  cases hj with
  | integer hi => cases h; exact Binary.isFinite_ofInt hi.natAbs_lt
  | real hx => cases h; exact hx
  | _ => cases h

/-- What a condition compares with is a single value, or a list of such. -/
theorem Operand.ofJson_eq_ok_iff {j : Json} {v : Operand} :
    ofJson j = .ok v ↔ (∃ s, Scalar.ofJson j = .ok s ∧ .scalar s = v) ∨
      ∃ items scalars, j = .array items ∧ List.Forall₂ (Scalar.ofJson · = .ok ·) items scalars ∧
        .list scalars = v := by
  have hsingle : (∀ items, j ≠ .array items) →
      (ofJson j = .ok v ↔ ∃ s, Scalar.ofJson j = .ok s ∧ .scalar s = v) := by
    intro hj
    rw [ofJson.eq_2 j hj]
    cases Scalar.ofJson j <;> simp
  cases j with
  | array items =>
    rw [ofJson]
    constructor
    · intro h
      cases hmap : items.mapM Scalar.ofJson with
      | error e => simp [hmap] at h
      | ok scalars =>
        refine Or.inr ⟨items, scalars, rfl, Decode.mapM_eq_ok_iff.1 hmap, ?_⟩
        simpa [hmap] using h
    · rintro (⟨s, hs, -⟩ | ⟨_, scalars, heq, hscalars, rfl⟩)
      · cases hs
      · cases heq
        rw [Decode.mapM_eq_ok_iff.2 hscalars]
  | _ => simpa using hsingle (by simp)

theorem Operand.finite_of_ofJson {j : Json} (hj : j.NumbersFit) {v : Operand}
    (h : ofJson j = .ok v) : ∀ s ∈ v.items, s.Finite := by
  rcases ofJson_eq_ok_iff.1 h with ⟨s, hs, rfl⟩ | ⟨items, scalars, rfl, hscalars, rfl⟩
  · intro t ht
    obtain rfl := List.mem_singleton.1 ht
    exact Scalar.finite_of_ofJson hj hs
  · cases hj with | array hitems =>
    intro s hs
    obtain ⟨i, hi, his⟩ := exists_of_forall₂ hscalars.flip s hs
    exact Scalar.finite_of_ofJson (hitems i hi) his

theorem Operand.ofJson_of_optionOfJson {j : Json} {v : Operand}
    (h : optionOfJson j = .ok (some v)) : ofJson j = .ok v := by
  have hsome : some <$> ofJson j = .ok (some v) → ofJson j = .ok v := by
    intro h
    obtain ⟨w, hw, heq⟩ := Decode.map_eq_ok_iff.1 h
    rw [hw, Option.some.inj heq]
  cases j with
  | null => cases h
  | _ => exact hsome h

/-! ### Nodes -/

namespace Rule

/-- **A part from which finite numbers come**, in whatever way it is looked at. -/
structure Part.Finite (p : Part) : Prop where
  /-- The numbers of the value fit. -/
  json : p.json.NumbersFit
  /-- The rule that it is, if any, has finite numbers. -/
  rule (r : Rule) (h : p.rule = .ok r) : r.FiniteNumbers
  /-- So have the rules that it lists. -/
  rules (rs : List Rule) (h : p.rules = .ok rs) : ∀ r ∈ rs, r.FiniteNumbers

theorem finiteNumbers_of_read {kind : NodeKind} {s : Slots Part} {r : Rule}
    (h : (form kind).read s = .ok r) (hparts : ∀ name p, s.part? name = some p → p.Finite) :
    r.FiniteNumbers := by
  rcases kind with c | - | -
  · obtain ⟨p, children, hp, hchildren, rfl⟩ := read_group_eq_ok_iff.1 h
    exact .group ((hparts _ p hp).rules children hchildren)
  · obtain ⟨p, child, hp, hchild, rfl⟩ := read_not_eq_ok_iff.1 h
    exact .not ((hparts _ p hp).rule child hchild)
  · obtain ⟨⟨op, key, value⟩, rfl, -, -, hvalue⟩ := read_condition_eq_ok_iff.1 h
    refine .condition ?_
    rcases hvalue with ⟨p, hp, hvalue⟩ | ⟨-, rfl⟩
    · cases value with
      | none => nofun
      | some v =>
        exact Operand.finite_of_ofJson (hparts _ p hp).json (Operand.ofJson_of_optionOfJson hvalue)
    · nofun

section Nodes

variable {δ : Type} {kindOf : δ → Decoded NodeKind} {hold : δ → Decoded Part} {enter : Json → δ}
  {r : Rule}

theorem finiteNumbers_of_ofMembers {members : List (String × Json)}
    (hhold : ∀ j, hold (enter j) = .ok (part j)) (hparts : ∀ m ∈ members, (part m.2).Finite)
    (h : ofMembers kindOf hold true (members.map (Prod.map some enter)) = .ok r) :
    r.FiniteNumbers := by
  obtain ⟨k, j, -, -, hnode⟩ := (ofMembers_eq_ok_iff hhold).1 h
  obtain ⟨s, hread, hmem⟩ := Form.exists_read_of_decode hnode
  refine finiteNumbers_of_read hread fun name p hp => ?_
  obtain ⟨m', hm', rfl⟩ := List.mem_map.1 (hmem name p hp)
  obtain ⟨m, hm, rfl⟩ := List.mem_map.1 hm'
  exact hparts m (List.mem_of_mem_filter hm)

theorem finiteNumbers_of_ofItems {items : List Json}
    (hhold : ∀ j, hold (enter j) = .ok (part j)) (hparts : ∀ j ∈ items, (part j).Finite)
    (h : ofItems kindOf hold true (items.map enter) = .ok r) : r.FiniteNumbers := by
  obtain ⟨k, j, rest, rfl, -, hnode⟩ := (ofItems_eq_ok_iff hhold).1 h
  obtain ⟨s, hread, hmem⟩ := Form.exists_read_of_decode hnode
  refine finiteNumbers_of_read hread fun name p hp => ?_
  obtain ⟨i, hi, rfl⟩ := List.mem_map.1 (hmem name p hp)
  exact hparts i (List.mem_cons_of_mem _ hi)

end Nodes

/-- **The parts of a value whose numbers fit.** -/
theorem finite_part {j : Json} (hj : j.NumbersFit) : (part j).Finite := by
  induction hj with
  | @array items hitems ih =>
    refine ⟨by simpa using Json.NumbersFit.array hitems, fun r hr => ?_, fun rs hrs => ?_⟩
    · rw [rule_part_array] at hr
      exact finiteNumbers_of_ofItems (fun _ => rfl) ih hr
    · rw [rules_part_array_eq_ok_iff] at hrs
      intro r hr
      obtain ⟨i, hi, hri⟩ := exists_of_forall₂ hrs.flip r hr
      exact (ih i hi).rule r hri
  | @object members hmembers ih =>
    refine ⟨by simpa using Json.NumbersFit.object hmembers, fun r hr => ?_, nofun⟩
    rw [rule_part_object] at hr
    exact finiteNumbers_of_ofMembers (fun _ => rfl) ih hr
  | null => exact ⟨.null, nofun, nofun⟩
  | bool b => exact ⟨.bool b, nofun, nofun⟩
  | integer hi => exact ⟨.integer hi, nofun, nofun⟩
  | real hx => exact ⟨.real hx, nofun, nofun⟩
  | string s => exact ⟨.string s, nofun, nofun⟩

/-- **Decoded rules have finite numbers.** -/
theorem finiteNumbers_of_decode {j : Json} (hj : j.NumbersFit) {r : Rule}
    (h : decode (.ofJson j) = .ok r) : r.FiniteNumbers := by
  cases hj with
  | array hitems =>
    rw [decode_array] at h
    exact finiteNumbers_of_ofItems hold_ofJson (fun i hi => finite_part (hitems i hi)) h
  | object hmembers =>
    rw [decode_object] at h
    exact finiteNumbers_of_ofMembers hold_ofJson (fun m hm => finite_part (hmembers m hm)) h
  | _ => cases h

end Rule

end Rulebook
