import Rulebook.Proofs.Rule.WellFormed

/-!
# What a rule means, and what can be read without its tree

A rule **holds** or does not, given which of its conditions do. Written down in a line, it is less
than a tree: there are conditions, connectives and negations one after another, and parentheses
under the negations. How what different connectives join is grouped the line does not say.

A reader who knows which of the two connectives binds **tighter** gets by without the tree. He
goes through the line once and keeps, for each open parenthesis, what the groups read so far come
to and what the group he is in comes to. He is right about the rules that keep to this convention,
that is, that have no group of the looser connective directly under one of the tighter connective.

* `Rulebook.Rule.holds` – whether a rule holds;
* `Rulebook.Rule.symbols` – a rule as a line of symbols;
* `Rulebook.Rule.Layered` – the rules that keep to the convention;
* `Rulebook.Rule.read_symbols` – **the reader is right** about these;
* `Rulebook.Rule.holds_eq_of_symbols_eq` – two of them with the same line mean the same.
-/

namespace Rulebook

/-! ### Meaning -/

namespace Connective

/-- The other connective. -/
def other : Connective → Connective
  | .all => .any
  | .any => .all

/-- What two truth values joined by a connective come to. -/
def join : Connective → Bool → Bool → Bool
  | .all => and
  | .any => or

/-- What no truth value at all comes to. -/
def unit : Connective → Bool
  | .all => true
  | .any => false

/-- What several truth values joined by a connective come to: all of them, or any. -/
def holds : Connective → List Bool → Bool
  | .all, bs => bs.all id
  | .any, bs => bs.any id

variable (c : Connective)

@[simp] theorem join_unit (b : Bool) : c.join b c.unit = b := by
  cases c <;> cases b <;> rfl

@[simp] theorem unit_join (b : Bool) : c.join c.unit b = b := by
  cases c <;> cases b <;> rfl

theorem join_assoc (x y z : Bool) : c.join (c.join x y) z = c.join x (c.join y z) := by
  cases c <;> cases x <;> cases y <;> cases z <;> rfl

@[simp] theorem holds_nil : c.holds [] = c.unit := by
  cases c <;> rfl

@[simp] theorem holds_cons (b : Bool) (bs : List Bool) :
    c.holds (b :: bs) = c.join b (c.holds bs) := by
  cases c <;> simp [holds, join]

theorem eq_or_eq_other (d : Connective) : d = c ∨ d = c.other := by
  cases c <;> cases d <;> decide

theorem other_ne : c.other ≠ c := by
  cases c <;> decide

end Connective

namespace Rule

mutual

/-- **Whether a rule holds**, given which conditions do. -/
def holds (truth : Condition → Bool) : Rule → Bool
  | .group c children => c.holds (holdsAll truth children)
  | .not child => !holds truth child
  | .condition c => truth c

/-- Which of several rules hold. -/
def holdsAll (truth : Condition → Bool) : List Rule → List Bool
  | [] => []
  | r :: rs => holds truth r :: holdsAll truth rs

end

end Rule

/-! ### Rules in a line -/

/-- **A symbol of a rule.** -/
inductive Symbol where
  /-- A condition. -/
  | condition (c : Condition)
  /-- A negation. -/
  | not
  /-- An opening parenthesis. -/
  | opening
  /-- A closing parenthesis. -/
  | closing
  /-- A connective. -/
  | connective (c : Connective)
deriving DecidableEq, Repr

namespace Rule

mutual

/-- **The symbols of a rule**, in a line. -/
def symbols : Rule → List Symbol
  | .group c children => [.connective c].intercalate (symbolsAll children)
  | .not (.condition c) => [.not, .condition c]
  | .not child => .not :: .opening :: symbols child ++ [.closing]
  | .condition c => [.condition c]

/-- The lines of several rules. -/
def symbolsAll : List Rule → List (List Symbol)
  | [] => []
  | r :: rs => symbols r :: symbolsAll rs

end

/-- A rule is a condition or none. -/
theorem condition_or_ne (r : Rule) : (∃ c, r = .condition c) ∨ ∀ c, r ≠ .condition c := by
  cases r with
  | condition c => exact Or.inl ⟨c, rfl⟩
  | group c children => exact Or.inr nofun
  | not child => exact Or.inr nofun

/-- The line of a negation, in one equation for all that is no condition. -/
theorem symbols_not {child : Rule} (h : ∀ c, child ≠ .condition c) :
    symbols (.not child) = .not :: .opening :: symbols child ++ [.closing] := by
  cases child with
  | condition c => exact absurd rfl (h c)
  | group c children => rfl
  | not child => rfl

/-- A node that keeps to a convention: under a group of the tighter connective there is no group
of the other one. -/
def Unmixed (tight : Connective) : Rule → Prop
  | .group c children => c = tight → ∀ r ∈ children, r.kind ≠ .group tight.other
  | _ => True

/-- **The rules that keep to a convention** on which connective binds tighter. -/
def Layered (tight : Connective) (r : Rule) : Prop := ∀ n ∈ r.nodes, n.Unmixed tight

/-- A node that has two children at least, if it is a group. -/
def Branches : Rule → Prop
  | .group _ children => 2 ≤ children.length
  | _ => True

/-- The rules whose groups have two children at least. -/
def Branched (r : Rule) : Prop := ∀ n ∈ r.nodes, n.Branches

/-- The rules that go with a catalog are such. -/
theorem Branched.of_check {catalog : Catalog} {r : Rule} (h : r.check catalog = .ok ()) :
    r.Branched := by
  intro n hn
  have hsound := (wellFormed_iff_nodes r).1 (check_eq_ok_iff.1 h) n hn
  cases n with
  | group c children => exact hsound
  | not child => trivial
  | condition c => trivial

theorem ne_nil_of_branches {c : Connective} {children : List Rule}
    (h : Branches (.group c children)) : children ≠ [] := by
  rintro rfl
  exact absurd h (Nat.not_succ_le_zero 1)

end Rule

/-! ### Reading -/

/-- What has been read since a parenthesis was opened. -/
structure Frame where
  /-- What the groups before come to. -/
  outer : Bool
  /-- What the group being read comes to. -/
  inner : Bool
  /-- Whether what comes next is negated. -/
  negated : Bool
deriving DecidableEq, Repr

namespace LineReader

variable (tight : Connective)

/-- Nothing has been read. -/
def fresh : Frame := ⟨tight.other.unit, tight.unit, false⟩

/-- What has been read comes to. -/
def value (F : Frame) : Bool := tight.other.join F.outer F.inner

/-- One more truth value in the group being read. -/
def feed (F : Frame) (b : Bool) : Frame := ⟨F.outer, tight.join F.inner (b ^^ F.negated), false⟩

/-- The group being read is over, and the next one begins. -/
def next (F : Frame) : Frame := ⟨value tight F, tight.unit, false⟩

/-- **One symbol read.** The frames are those of the open parentheses, the innermost first. -/
def step (truth : Condition → Bool) : List Frame → Symbol → List Frame
  | F :: rest, .condition c => feed tight F (truth c) :: rest
  | F :: rest, .not => { F with negated := true } :: rest
  | F :: rest, .opening => fresh tight :: F :: rest
  | F :: G :: rest, .closing => feed tight G (value tight F) :: rest
  | F :: rest, .connective c => (if c = tight then F else next tight F) :: rest
  | frames, _ => frames

/-- The symbols read one after another. -/
def run (truth : Condition → Bool) (frames : List Frame) (ts : List Symbol) : List Frame :=
  ts.foldl (step tight truth) frames

/-- **What a line comes to.** -/
def read (truth : Condition → Bool) (ts : List Symbol) : Bool :=
  ((run tight truth [fresh tight] ts).head?.map (value tight)).getD false

variable {tight : Connective} {truth : Condition → Bool} {F : Frame} {rest : List Frame}

theorem run_append (frames : List Frame) (ts us : List Symbol) :
    run tight truth frames (ts ++ us) = run tight truth (run tight truth frames ts) us :=
  List.foldl_append ..

theorem run_cons (frames : List Frame) (t : Symbol) (ts : List Symbol) :
    run tight truth frames (t :: ts) = run tight truth (step tight truth frames t) ts :=
  List.foldl_cons ..

@[simp] theorem run_nil (frames : List Frame) : run tight truth frames [] = frames := rfl

/-- Reading the lines of several rules with a connective in between, rule by rule. -/
theorem run_intercalate_cons (c : Connective) (frames : List Frame) (ts us : List Symbol)
    (more : List (List Symbol)) :
    run tight truth frames ([.connective c].intercalate (ts :: us :: more)) =
      run tight truth (step tight truth (run tight truth frames ts) (.connective c))
        ([.connective c].intercalate (us :: more)) := by
  rw [List.intercalate_cons_cons, run_append, run_append, run_cons, run_nil]

/-- Reading a rule feeds its truth value to the group being read. -/
def Feeds (tight : Connective) (truth : Condition → Bool) (r : Rule) : Prop :=
  ∀ F rest, F.negated = false →
    run tight truth (F :: rest) r.symbols = feed tight F (r.holds truth) :: rest

/-- Reading a rule between two groups adds its truth value to what has been read. -/
def Adds (tight : Connective) (truth : Condition → Bool) (r : Rule) : Prop :=
  ∀ outer rest, ∃ F, run tight truth (⟨outer, tight.unit, false⟩ :: rest) r.symbols = F :: rest ∧
    F.negated = false ∧ value tight F = tight.other.join outer (r.holds truth)

/-- What feeds a group adds a group. -/
theorem Feeds.adds {r : Rule} (h : Feeds tight truth r) : Adds tight truth r := fun outer rest =>
  ⟨_, h _ rest rfl, rfl, by simp [value, feed]⟩

/-- Truth values fed one after another are fed together. -/
theorem feed_feed (hF : F.negated = false) (a b : Bool) :
    feed tight (feed tight F a) b = feed tight F (tight.join a b) := by
  simp [feed, hF, tight.join_assoc]

/-- Several rules under the tighter connective feed the group one after another. -/
theorem feeds_group_tight {children : List Rule} (h : ∀ r ∈ children, Feeds tight truth r) :
    Feeds tight truth (.group tight children) := by
  intro F rest hF
  change run tight truth (F :: rest) ([.connective tight].intercalate (Rule.symbolsAll children)) =
    feed tight F (tight.holds (Rule.holdsAll truth children)) :: rest
  induction children generalizing F with
  | nil =>
    obtain ⟨outer, inner, negated⟩ := F
    cases hF
    simp [Rule.symbolsAll, Rule.holdsAll, feed]
  | cons r rs ih =>
    obtain ⟨hr, hrs⟩ := List.forall_mem_cons.1 h
    rw [Rule.holdsAll, Connective.holds_cons, ← feed_feed hF]
    cases rs with
    | nil =>
      rw [Rule.symbolsAll, Rule.symbolsAll, List.intercalate_singleton, hr F rest hF]
      simp [Rule.holdsAll, feed]
    | cons r' rs =>
      have hstep : step tight truth (feed tight F (r.holds truth) :: rest) (.connective tight) =
          feed tight F (r.holds truth) :: rest := by simp [step]
      rw [Rule.symbolsAll, Rule.symbolsAll, run_intercalate_cons, hr F rest hF, hstep]
      exact ih hrs (feed tight F (r.holds truth)) rfl

/-- Several rules under the other connective add a group each. -/
theorem adds_group_other {children : List Rule} (hne : children ≠ [])
    (h : ∀ r ∈ children, Adds tight truth r) : Adds tight truth (.group tight.other children) := by
  intro outer rest
  change ∃ F, run tight truth (⟨outer, tight.unit, false⟩ :: rest)
      ([.connective tight.other].intercalate (Rule.symbolsAll children)) = F :: rest ∧
    F.negated = false ∧
      value tight F = tight.other.join outer (tight.other.holds (Rule.holdsAll truth children))
  induction children generalizing outer with
  | nil => exact absurd rfl hne
  | cons r rs ih =>
    obtain ⟨hr, hrs⟩ := List.forall_mem_cons.1 h
    obtain ⟨F, hrun, hF, hvalue⟩ := hr outer rest
    rw [Rule.holdsAll, Connective.holds_cons, ← Connective.join_assoc, ← hvalue]
    cases rs with
    | nil =>
      refine ⟨F, ?_, hF, by simp [Rule.holdsAll]⟩
      rw [Rule.symbolsAll, Rule.symbolsAll, List.intercalate_singleton, hrun]
    | cons r' rs =>
      have hstep : step tight truth (F :: rest) (.connective tight.other) =
          ⟨value tight F, tight.unit, false⟩ :: rest := by
        simp [step, tight.other_ne, next]
      rw [Rule.symbolsAll, Rule.symbolsAll, run_intercalate_cons, hrun, hstep]
      exact ih (List.cons_ne_nil r' rs) hrs (value tight F)

theorem feeds_condition (c : Condition) : Feeds tight truth (.condition c) := by
  intro F rest hF
  rfl

/-- What stands in parentheses is read on its own, and then negated. -/
theorem feeds_not {child : Rule} (h : Adds tight truth child) : Feeds tight truth (.not child) := by
  intro F rest hF
  have hnegated : feed tight { F with negated := true } (child.holds truth) =
      feed tight F ((Rule.not child).holds truth) := by
    simp [feed, hF, Rule.holds]
  rcases child.condition_or_ne with ⟨c, rfl⟩ | hchild
  · exact congrArg (· :: rest) hnegated
  · rw [Rule.symbols_not hchild]
    obtain ⟨G, hrun, -, hvalue⟩ := h tight.other.unit ({ F with negated := true } :: rest)
    rw [Connective.unit_join] at hvalue
    calc run tight truth (F :: rest) (.not :: .opening :: child.symbols ++ [.closing])
        = run tight truth (fresh tight :: { F with negated := true } :: rest)
            (child.symbols ++ [.closing]) := rfl
      _ = run tight truth (G :: { F with negated := true } :: rest) [.closing] := by
        rw [run_append, fresh, hrun]
      _ = feed tight { F with negated := true } (value tight G) :: rest := rfl
      _ = feed tight F ((Rule.not child).holds truth) :: rest := by rw [hvalue, hnegated]

end LineReader

/-! ### Rules that keep to the convention -/

namespace Rule

variable {tight : Connective} {truth : Condition → Bool}

open LineReader

mutual

/-- **What reading a rule does**, by the kind of its node at the top. -/
theorem adds_and_feeds : ∀ r : Rule, r.Layered tight → r.Branched →
    Adds tight truth r ∧ (r.kind ≠ .group tight.other → Feeds tight truth r)
  | .group c children, hlayered, hbranched => by
    obtain ⟨hnode, hbelow⟩ := List.forall_mem_cons.1 hlayered
    obtain ⟨hbranches, hbranchedBelow⟩ := List.forall_mem_cons.1 hbranched
    have hchildren := adds_and_feeds_of_mem children hbelow hbranchedBelow
    rcases tight.eq_or_eq_other c with rfl | rfl
    · have hfeeds : Feeds c truth (.group c children) :=
        feeds_group_tight fun r hr => (hchildren r hr).2 (hnode rfl r hr)
      exact ⟨hfeeds.adds, fun _ => hfeeds⟩
    · exact ⟨adds_group_other (ne_nil_of_branches hbranches) fun r hr => (hchildren r hr).1,
        fun hkind => absurd rfl hkind⟩
  | .not child, hlayered, hbranched => by
    have hchild := adds_and_feeds child (List.forall_mem_cons.1 hlayered).2
      (List.forall_mem_cons.1 hbranched).2
    have hfeeds : Feeds tight truth (.not child) := feeds_not hchild.1
    exact ⟨hfeeds.adds, fun _ => hfeeds⟩
  | .condition c, _, _ => ⟨(feeds_condition c).adds, fun _ => feeds_condition c⟩

theorem adds_and_feeds_of_mem : ∀ rs : List Rule, (∀ n ∈ nodesAll rs, n.Unmixed tight) →
    (∀ n ∈ nodesAll rs, n.Branches) → ∀ r ∈ rs,
    Adds tight truth r ∧ (r.kind ≠ .group tight.other → Feeds tight truth r)
  | [], _, _ => nofun
  | r :: rs, hlayered, hbranched => by
    obtain ⟨hr, hrs⟩ := List.forall_mem_append.1 hlayered
    obtain ⟨hr', hrs'⟩ := List.forall_mem_append.1 hbranched
    exact List.forall_mem_cons.2 ⟨adds_and_feeds r hr hr', adds_and_feeds_of_mem rs hrs hrs'⟩

end

/-- **The reader is right** about the rules that keep to his convention. -/
theorem read_symbols {r : Rule} (hlayered : r.Layered tight) (hbranched : r.Branched) :
    read tight truth r.symbols = r.holds truth := by
  obtain ⟨F, hrun, -, hvalue⟩ := (adds_and_feeds r hlayered hbranched).1 tight.other.unit []
  rw [LineReader.read, fresh, hrun, ← Connective.unit_join tight.other (r.holds truth), ← hvalue]
  rfl

/-- Two rules that keep to the same convention and have the same line mean the same. -/
theorem holds_eq_of_symbols_eq {r s : Rule} (hr : r.Layered tight) (hs : s.Layered tight)
    (hr' : r.Branched) (hs' : s.Branched) (h : r.symbols = s.symbols) (truth : Condition → Bool) :
    r.holds truth = s.holds truth := by
  rw [← read_symbols hr hr', h, read_symbols hs hs']

end Rule

end Rulebook
