import Rulebook.Proofs.Rule.Meaning

/-!
# Rules that need no convention

A rule is **uniform** if no group of its has a group of the other connective directly under it.
Such a rule keeps to either convention on which connective binds tighter. The point of this file is
that its line shows it: between an opening parenthesis and the closing one, those inside skipped,
there is one connective only. So every rule with the same line is uniform as well, and means the
same.

* `Rulebook.Rule.Uniform` – the uniform rules;
* `Rulebook.Rule.scanned` – **a scan of the line** that keeps the connective of each
  open parenthesis succeeds for uniform rules only;
* `Rulebook.Rule.holds_eq_of_uniform` – a rule with the same line as a uniform one means the same.
-/

namespace Rulebook

/-! ### The scan of a line -/

/-- The connective met since a parenthesis was opened, if there was any. -/
abbrev Level : Type := Option Connective

/-- **One symbol scanned.** A connective has to be the one met before at the level. -/
def Level.step : List Level → Symbol → Option (List Level)
  | o :: rest, .connective c => if o = none ∨ o = some c then some (some c :: rest) else none
  | levels, .opening => some (none :: levels)
  | _ :: rest, .closing => some rest
  | levels, _ => some levels

/-- The symbols scanned one after another. -/
def scanLevels (levels : List Level) (ts : List Symbol) : Option (List Level) :=
  ts.foldlM Level.step levels

namespace Rule

/-- A node without a group of the other connective under it, if it is a group. -/
def Unbroken : Rule → Prop
  | .group c children => ∀ r ∈ children, ∀ d, r.kind = .group d → d = c
  | _ => True

/-- **The uniform rules.** -/
def Uniform (r : Rule) : Prop := ∀ n ∈ r.nodes, n.Unbroken

/-- Uniform rules keep to either convention. -/
theorem Uniform.layered {r : Rule} (h : r.Uniform) (tight : Connective) : r.Layered tight := by
  intro n hn
  have hnode := h n hn
  cases n with
  | group c children =>
    rintro rfl r hr hkind
    exact c.other_ne (hnode r hr _ hkind)
  | not child => trivial
  | condition c => trivial

/-- A rule can stand at a level: a group there has the connective of the level. -/
def Fits (o : Level) (r : Rule) : Prop := ∀ d, r.kind = .group d → o = none ∨ o = some d

/-- The connective of a level behind a rule. -/
def levelAfter (o : Level) (r : Rule) : Level :=
  match r.kind with
  | .group d => some d
  | _ => o

variable {o : Level} {rest levels : List Level} {c : Connective} {r : Rule}

/-- Which rules a group may begin with. -/
theorem fits_and_levelAfter_iff :
    (r.Fits o ∧ (r.levelAfter o = none ∨ r.levelAfter o = some c)) ↔
      (∀ d, r.kind = .group d → d = c) ∧ (o = none ∨ o = some c) := by
  unfold Fits levelAfter
  cases hkind : r.kind with
  | group d =>
    constructor
    · rintro ⟨hfits, hnone | hsome⟩
      · cases hnone
      · cases hsome
        exact ⟨fun d' h => (NodeKind.group.inj h).symm, hfits c rfl⟩
    · rintro ⟨hd, hlevel⟩
      obtain rfl := hd d rfl
      exact ⟨fun d' h => NodeKind.group.inj h ▸ hlevel, Or.inr rfl⟩
  | not => simp
  | condition => simp

/-- A rule is scanned: it has to be uniform and to fit. -/
def Scanned (r : Rule) : Prop := ∀ o rest levels,
  scanLevels (o :: rest) r.symbols = some levels ↔
    r.Uniform ∧ r.Fits o ∧ levels = r.levelAfter o :: rest

/-- A rule and a connective behind it are scanned. -/
theorem Scanned.append_connective (hr : r.Scanned) {us : List Symbol} :
    scanLevels (o :: rest) (r.symbols ++ .connective c :: us) = some levels ↔
      (r.Uniform ∧ ∀ d, r.kind = .group d → d = c) ∧ (o = none ∨ o = some c) ∧
        scanLevels (some c :: rest) us = some levels := by
  have hconnective : ∀ l : Level, scanLevels (l :: rest) (.connective c :: us) = some levels ↔
      (l = none ∨ l = some c) ∧ scanLevels (some c :: rest) us = some levels := by
    intro l
    rw [scanLevels, List.foldlM_cons, Level.step]
    split
    · next hl => simp [hl, scanLevels]
    · next hl => simp [hl]
  have hbind : scanLevels (o :: rest) (r.symbols ++ .connective c :: us) = some levels ↔
      ∃ middle, scanLevels (o :: rest) r.symbols = some middle ∧
        scanLevels middle (.connective c :: us) = some levels := by
    rw [scanLevels, List.foldlM_append]
    exact Option.bind_eq_some_iff
  rw [hbind]
  constructor
  · rintro ⟨middle, hmiddle, hrest⟩
    obtain ⟨huniform, hfits, rfl⟩ := (hr o rest middle).1 hmiddle
    obtain ⟨hlevel, htail⟩ := (hconnective _).1 hrest
    obtain ⟨hkind, ho⟩ := fits_and_levelAfter_iff.1 ⟨hfits, hlevel⟩
    exact ⟨⟨huniform, hkind⟩, ho, htail⟩
  · rintro ⟨⟨huniform, hkind⟩, ho, htail⟩
    obtain ⟨hfits, hlevel⟩ := fits_and_levelAfter_iff.2 ⟨hkind, ho⟩
    exact ⟨_, (hr o rest _).2 ⟨huniform, hfits, rfl⟩, (hconnective _).2 ⟨hlevel, htail⟩⟩

/-- The rules of a group are scanned behind a connective of the group. -/
theorem scanLevels_intercalate_iff {rs : List Rule} (hne : rs ≠ []) (h : ∀ r ∈ rs, r.Scanned) :
    scanLevels (some c :: rest) ([.connective c].intercalate (symbolsAll rs)) = some levels ↔
      (∀ r ∈ rs, r.Uniform ∧ ∀ d, r.kind = .group d → d = c) ∧ levels = some c :: rest := by
  induction rs with
  | nil => exact absurd rfl hne
  | cons r rs ih =>
    obtain ⟨hr, hrs⟩ := List.forall_mem_cons.1 h
    cases rs with
    | nil =>
      have hfits : r.Fits (some c) ↔ ∀ d, r.kind = .group d → d = c := by
        simp [Fits, eq_comm]
      have hlevel : (∀ d, r.kind = .group d → d = c) → r.levelAfter (some c) = some c := by
        intro hkind
        unfold levelAfter
        split
        · next d hd => rw [hkind d hd]
        · rfl
      rw [symbolsAll, symbolsAll, List.intercalate_singleton, hr (some c) rest levels, hfits,
        List.forall_mem_singleton]
      constructor
      · rintro ⟨huniform, hkind, hlevels⟩
        exact ⟨⟨huniform, hkind⟩, by rw [hlevels, hlevel hkind]⟩
      · rintro ⟨⟨huniform, hkind⟩, hlevels⟩
        exact ⟨huniform, hkind, by rw [hlevels, hlevel hkind]⟩
    | cons r' rs =>
      have hmore := ih (List.cons_ne_nil r' rs) hrs
      rw [symbolsAll] at hmore
      rw [symbolsAll, symbolsAll, List.intercalate_cons_cons, List.append_assoc,
        List.singleton_append, hr.append_connective, hmore, List.forall_mem_cons]
      simp [and_assoc]

/-- A group is scanned if its rules are. -/
theorem scanned_group {children : List Rule} (hbranches : Branches (.group c children))
    (h : ∀ r ∈ children, r.Scanned) : Scanned (.group c children) := by
  intro o rest levels
  have huniform : Uniform (.group c children) ↔
      ∀ r ∈ children, r.Uniform ∧ ∀ d, r.kind = .group d → d = c := by
    rw [Uniform, nodes, List.forall_mem_cons, forall_mem_nodesAll]
    constructor
    · rintro ⟨hkinds, hbelow⟩ r hr
      exact ⟨hbelow r hr, hkinds r hr⟩
    · intro hall
      exact ⟨fun r hr => (hall r hr).2, fun r hr => (hall r hr).1⟩
  have hfits : Fits o (.group c children) ↔ o = none ∨ o = some c := by
    simp [Fits, kind]
  rw [huniform, hfits]
  change scanLevels (o :: rest) ([.connective c].intercalate (symbolsAll children)) = some levels ↔
    _ ∧ _ ∧ levels = some c :: rest
  obtain ⟨r, r', rs, rfl⟩ : ∃ r r' rs, children = r :: r' :: rs := by
    rcases children with _ | ⟨r, _ | ⟨r', rs⟩⟩
    · exact absurd hbranches (Nat.not_succ_le_zero 1)
    · exact absurd hbranches (Nat.not_succ_le_self 1)
    · exact ⟨r, r', rs, rfl⟩
  obtain ⟨hr, hrs⟩ := List.forall_mem_cons.1 h
  have hmore : scanLevels (some c :: rest)
        ([.connective c].intercalate (r'.symbols :: symbolsAll rs)) = some levels ↔ _ :=
    scanLevels_intercalate_iff (List.cons_ne_nil r' rs) hrs
  rw [symbolsAll, symbolsAll, List.intercalate_cons_cons, List.append_assoc,
    List.singleton_append, hr.append_connective, hmore, List.forall_mem_cons]
  grind

/-- What stands in parentheses is scanned at a level of its own. -/
theorem scanned_not {child : Rule} (h : child.Scanned) : Scanned (.not child) := by
  intro o rest levels
  have huniform : Uniform (.not child) ↔ child.Uniform := by
    rw [Uniform, nodes, List.forall_mem_cons]
    exact and_iff_right trivial
  have hfits : Fits o (.not child) := nofun
  change _ ↔ _ ∧ _ ∧ levels = o :: rest
  rw [huniform, and_iff_right hfits]
  rcases child.condition_or_ne with ⟨c, rfl⟩ | hne
  · have hchild : Uniform (.condition c) := List.forall_mem_singleton.2 trivial
    rw [and_iff_right hchild]
    exact ⟨fun heq => (Option.some.inj heq).symm, fun heq => by rw [heq]; rfl⟩
  · rw [symbols_not hne]
    have hbind : scanLevels (o :: rest) (.not :: .opening :: child.symbols ++ [.closing]) =
        some levels ↔ ∃ middle, scanLevels (none :: o :: rest) child.symbols = some middle ∧
          scanLevels middle [.closing] = some levels := by
      change scanLevels (none :: o :: rest) (child.symbols ++ [.closing]) = some levels ↔ _
      rw [scanLevels, List.foldlM_append]
      exact Option.bind_eq_some_iff
    rw [hbind]
    constructor
    · rintro ⟨middle, hmiddle, hclosing⟩
      obtain ⟨hchild, -, rfl⟩ := (h none (o :: rest) middle).1 hmiddle
      exact ⟨hchild, (Option.some.inj hclosing).symm⟩
    · rintro ⟨hchild, rfl⟩
      exact ⟨_, (h none (o :: rest) _).2 ⟨hchild, fun _ _ => Or.inl rfl, rfl⟩, rfl⟩

mutual

/-- **The scan of the line** of a rule succeeds if the rule is uniform and fits, and only then. -/
theorem scanned : ∀ r : Rule, r.Branched → r.Scanned
  | .group c children, hbranched => by
    obtain ⟨hbranches, hbelow⟩ := List.forall_mem_cons.1 hbranched
    exact scanned_group hbranches (scanned_of_mem children hbelow)
  | .not child, hbranched => scanned_not (scanned child (List.forall_mem_cons.1 hbranched).2)
  | .condition c, _ => by
    intro o rest levels
    have huniform : Uniform (.condition c) := List.forall_mem_singleton.2 trivial
    have hfits : Fits o (.condition c) := nofun
    rw [and_iff_right huniform, and_iff_right hfits]
    exact ⟨fun heq => (Option.some.inj heq).symm, fun heq => by rw [heq]; rfl⟩

theorem scanned_of_mem : ∀ rs : List Rule, (∀ n ∈ nodesAll rs, n.Branches) → ∀ r ∈ rs, r.Scanned
  | [], _ => nofun
  | r :: rs, hbranched => by
    obtain ⟨hr, hrs⟩ := List.forall_mem_append.1 hbranched
    exact List.forall_mem_cons.2 ⟨scanned r hr, scanned_of_mem rs hrs⟩

end

/-- A line tells whether its rule is uniform. -/
theorem uniform_iff_scanLevels (h : r.Branched) :
    r.Uniform ↔ (scanLevels [none] r.symbols).isSome = true := by
  rw [Option.isSome_iff_exists]
  constructor
  · intro huniform
    exact ⟨_, (scanned r h none [] _).2 ⟨huniform, fun _ _ => Or.inl rfl, rfl⟩⟩
  · rintro ⟨levels, hscan⟩
    exact ((scanned r h none [] levels).1 hscan).1

/-- **A rule with the same line as a uniform one** is uniform and means the same. -/
theorem holds_eq_of_uniform {s : Rule} (hr : r.Branched) (hs : s.Branched) (huniform : r.Uniform)
    (h : r.symbols = s.symbols) (truth : Condition → Bool) : r.holds truth = s.holds truth := by
  have huniform' : s.Uniform := by
    rw [uniform_iff_scanLevels hs, ← h, ← uniform_iff_scanLevels hr]
    exact huniform
  exact holds_eq_of_symbols_eq (huniform.layered .all) (huniform'.layered .all) hr hs h truth

end Rule

end Rulebook
