import Rulebook.Proofs.Rule.Items
import Rulebook.Proofs.Rule.Sentence

/-!
# Nothing is lost in a sentence

What a sentence has to tell of a rule is, for each of its conditions from left to right, the key of
the field, the operator, and the values of the payload one after another. These are its **pieces**.
A text tells some pieces if it is a row of them, each with something in between that says no more
than how they go together: a connective, a negation, a parenthesis, a brace, a comma or a blank.

When a condition is written, a payload that does not go with the operator is passed over: what is
missing is written as nothing, and what is too much is left out. The check lets no such condition
through. So the sentence for a rule that goes with a catalog tells all its pieces, and no more.

* `Rulebook.Rule.conditions`, `Rulebook.Condition.pieces` – what there is to tell;
* `Rulebook.Segment` – a piece, or what stands between pieces, and `Rulebook.Segment.Follows` –
  what may stand behind what;
* `Rulebook.Tells` – **a text tells pieces**, one after another;
* `Rulebook.Rule.sentence_tells` – sentences do.
-/

namespace Rulebook

/-! ### What there is to tell -/

/-- **What a sentence tells of a condition**, piece by piece. -/
inductive Piece where
  /-- The key of the field. -/
  | key (k : String)
  /-- The phrase for the operator. -/
  | phrase (op : Operator)
  /-- A value of the payload. -/
  | value (s : Scalar)
deriving DecidableEq

/-- How a piece is written. -/
def Piece.text : Piece → String
  | .key k => k
  | .phrase op => op.phrase
  | .value s => s.describe

/-- **The pieces of a condition**, with each value of the payload. -/
def Condition.pieces (c : Condition) : List Piece :=
  .key c.fieldKey :: .phrase c.operator :: c.values.map .value

/-- What stands between pieces, and around them. -/
inductive Link where
  /-- The connective that asks for both, also between the ends of a range. -/
  | and
  /-- The connective that asks for one of them. -/
  | or
  /-- A negation. -/
  | not
  /-- An opening parenthesis. -/
  | opening
  /-- A closing parenthesis. -/
  | closing
  /-- The brace in front of a list. -/
  | listOpening
  /-- The brace behind a list. -/
  | listClosing
  /-- What stands between the items of a list. -/
  | comma
  /-- A single blank. -/
  | blank
deriving DecidableEq

/-- How it is written. -/
def Link.text : Link → String
  | .and => " AND "
  | .or => " OR "
  | .not => "NOT "
  | .opening => "("
  | .closing => ")"
  | .listOpening => "\x7b"
  | .listClosing => "\x7d"
  | .comma => ","
  | .blank => " "

/-- **What a sentence is made of.** -/
inductive Segment where
  /-- Something to tell. -/
  | piece (p : Piece)
  /-- Something in between. -/
  | link (l : Link)
deriving DecidableEq

namespace Segment

/-- How it is written. -/
def text : Segment → String
  | .piece p => p.text
  | .link l => l.text

/-- What it tells, if anything. -/
def piece? : Segment → Option Piece
  | .piece p => some p
  | .link _ => none

/-- **What may stand behind what.** Between two pieces there is something, and no two blanks meet
there. -/
inductive Follows : Segment → Segment → Prop
  /-- Something stands behind a piece. -/
  | link (p : Piece) (l : Link) : Follows (.piece p) (.link l)
  /-- A piece stands behind something. -/
  | piece (l : Link) (p : Piece) : Follows (.link l) (.piece p)
  /-- There may be more between two pieces. -/
  | more {l m : Link} (h : l.text.toList.getLast? ≠ some ' ' ∨ m.text.toList.head? ≠ some ' ') :
    Follows (.link l) (.link m)

end Segment

/-- **A text tells some pieces**, one after another: it is written in segments that are these pieces
and what stands between and around them. The blanks that do are single ones, also with another one
in front of the text and behind it. -/
def Tells (text : String) (ps : List Piece) : Prop :=
  ∃ gs : List Segment, text = String.join (gs.map Segment.text) ∧ gs.filterMap Segment.piece? = ps ∧
    (.link .blank :: (gs ++ [.link .blank])).IsChain Segment.Follows

namespace Rule

mutual

/-- **The conditions of a rule**, from left to right. -/
def conditions : Rule → List Condition
  | .group _ children => conditionsAll children
  | .not child => conditions child
  | .condition c => [c]

/-- The conditions of several rules. -/
def conditionsAll : List Rule → List Condition
  | [] => []
  | r :: rs => conditions r ++ conditionsAll rs

end

end Rule

/-! ### Values -/

namespace Segment

/-- The text of segments. -/
def line (gs : List Segment) : List Char := gs.flatMap fun g => g.text.toList

@[simp] theorem line_nil : line [] = [] := rfl

@[simp] theorem line_piece (p : Piece) (gs : List Segment) :
    line (.piece p :: gs) = p.text.toList ++ line gs := rfl

@[simp] theorem line_link (l : Link) (gs : List Segment) :
    line (.link l :: gs) = l.text.toList ++ line gs := rfl

@[simp] theorem line_append (gs hs : List Segment) : line (gs ++ hs) = line gs ++ line hs :=
  List.flatMap_append

@[simp] theorem filterMap_piece?_piece (p : Piece) (gs : List Segment) :
    (.piece p :: gs).filterMap piece? = p :: gs.filterMap piece? := rfl

@[simp] theorem filterMap_piece?_link (l : Link) (gs : List Segment) :
    (.link l :: gs).filterMap piece? = gs.filterMap piece? := rfl

/-- Values with something in between. -/
def row (sep : Link) : List Scalar → List Segment
  | [] => []
  | x :: xs => .piece (.value x) :: xs.flatMap fun y => [.link sep, .piece (.value y)]

variable {sep : Link} {gs : List Segment} {xs : List Scalar}

theorem row_cons_cons (sep : Link) (x y : Scalar) (xs : List Scalar) :
    row sep (x :: y :: xs) = .piece (.value x) :: .link sep :: row sep (y :: xs) := rfl

theorem line_row (sep : Link) (xs : List Scalar) :
    line (row sep xs) = Scalar.row sep.text.toList xs := by
  cases xs with
  | nil => rfl
  | cons x xs =>
    rw [row, line_piece, Scalar.row, line, List.flatMap_assoc]
    simp [Scalar.behind, Piece.text, text]

@[simp] theorem filterMap_piece?_row (sep : Link) (xs : List Scalar) :
    (row sep xs).filterMap piece? = xs.map .value := by
  cases xs with
  | nil => rfl
  | cons x xs =>
    rw [row, filterMap_piece?_piece, List.filterMap_flatMap, List.map_cons, List.map_eq_flatMap]
    rfl

/-- **A segment that something may stand behind**, whatever it is. -/
def Ends (g : Segment) : Prop := ∀ l : Link, g.Follows (.link l)

/-- **A segment that may stand in front of a place**: where a rule has ended, one that something may
stand behind, and where one begins, no piece. -/
def LeadsTo (g : Segment) : Place → Prop
  | .finish => g.Ends
  | _ => ∃ l, g = .link l

theorem ends_piece (p : Piece) : (Segment.piece p).Ends := fun l => .link p l

theorem ends_link {l : Link} (h : l.text.toList.getLast? ≠ some ' ') : (Segment.link l).Ends :=
  fun _ => .more (Or.inl h)

/-- Values can stand behind something, and behind them what can stand behind the last one. -/
theorem isChain_row (hne : xs ≠ []) (h : ∀ g : Segment, g.Ends → (g :: gs).IsChain Follows)
    (l : Link) : (.link l :: (row sep xs ++ gs)).IsChain Follows := by
  induction xs generalizing l with
  | nil => exact absurd rfl hne
  | cons x xs ih =>
    cases xs with
    | nil => exact .cons_cons (.piece l _) (h _ (ends_piece _))
    | cons y ys =>
      rw [row_cons_cons]
      exact .cons_cons (.piece l _) (.cons_cons (.link _ sep) (ih (List.cons_ne_nil y ys) sep))

end Segment

/-! ### Conditions -/

namespace Condition

open Rulebook.Segment

/-- The payload of a condition in segments. -/
def payloadSegments (c : Condition) : List Segment :=
  match c.operator.payload with
  | .nothing => []
  | .several => .link .blank :: .link .listOpening :: (row .comma c.values ++ [.link .listClosing])
  | _ => .link .blank :: row .and c.values

/-- A condition in segments. -/
def segments (c : Condition) : List Segment :=
  .piece (.key c.fieldKey) :: .link .blank :: .piece (.phrase c.operator) :: c.payloadSegments

variable {c : Condition} {gs : List Segment}

theorem line_payloadSegments (h : c.operator.Wants c.value) :
    line c.payloadSegments = c.describePayload.toList := by
  obtain ⟨op, key, value⟩ := c
  rcases h.shape with ⟨hp, rfl⟩ | ⟨hp, s, rfl⟩ | ⟨hp, low, high, rfl⟩ | ⟨hp, x, xs, rfl⟩
  · simp [payloadSegments, describePayload, hp]
  · simp [payloadSegments, describePayload, hp, values, Operand.items, line_row, Scalar.row,
      Link.text]
  · simp [payloadSegments, describePayload, describePayload.nth, hp, values, Operand.items,
      line_row, Scalar.row_eq_intercalate, List.intercalate_cons_cons, Link.text]
  · simp [payloadSegments, describePayload, hp, values, Operand.items, line_row,
      Scalar.row_eq_intercalate, Function.comp_def, Link.text]

/-- There is no payload, or its values stand behind a blank, a list in braces. -/
theorem payloadSegments_cases (h : c.operator.Wants c.value) :
    (c.values = [] ∧ c.payloadSegments = []) ∨
      (c.values ≠ [] ∧ c.payloadSegments = .link .blank :: row .and c.values) ∨
      (c.values ≠ [] ∧ c.payloadSegments =
        .link .blank :: .link .listOpening :: (row .comma c.values ++ [.link .listClosing])) := by
  obtain ⟨op, key, value⟩ := c
  rcases h.shape with ⟨hp, rfl⟩ | ⟨hp, s, rfl⟩ | ⟨hp, low, high, rfl⟩ | ⟨hp, x, xs, rfl⟩
  · exact Or.inl ⟨rfl, by rw [payloadSegments, hp]⟩
  · exact Or.inr (Or.inl ⟨List.cons_ne_nil _ _, by rw [payloadSegments, hp]⟩)
  · exact Or.inr (Or.inl ⟨List.cons_ne_nil _ _, by rw [payloadSegments, hp]⟩)
  · exact Or.inr (Or.inr ⟨List.cons_ne_nil _ _, by rw [payloadSegments, hp]⟩)

/-- **A condition whose payload is what the operator wants** is written in its segments. -/
theorem line_segments (h : c.operator.Wants c.value) : line c.segments = c.describe.toList := by
  rw [describe_toList, ← line_payloadSegments h]
  simp [segments, Piece.text, Link.text]

/-- They tell its pieces. -/
theorem filterMap_piece?_segments (h : c.operator.Wants c.value) :
    c.segments.filterMap piece? = c.pieces := by
  have hpayload : c.payloadSegments.filterMap piece? = c.values.map .value := by
    rcases payloadSegments_cases h with ⟨hvalues, heq⟩ | ⟨-, heq⟩ | ⟨-, heq⟩
    · rw [heq, hvalues]
      rfl
    · rw [heq, filterMap_piece?_link, filterMap_piece?_row]
    · simp [heq]
  rw [segments, filterMap_piece?_piece, filterMap_piece?_link, filterMap_piece?_piece, hpayload,
    pieces]

/-- A condition can stand behind something, and behind it what can stand behind its last
segment. -/
theorem isChain_segments (hwants : c.operator.Wants c.value)
    (h : ∀ g : Segment, g.Ends → (g :: gs).IsChain Follows) (l : Link) :
    (.link l :: (c.segments ++ gs)).IsChain Follows := by
  suffices hpayload :
      (.piece (.phrase c.operator) :: (c.payloadSegments ++ gs)).IsChain Follows from
    .cons_cons (.piece l _) (.cons_cons (.link _ _) (.cons_cons (.piece _ _) hpayload))
  rcases payloadSegments_cases hwants with ⟨-, heq⟩ | ⟨hne, heq⟩ | ⟨hne, heq⟩
  · rw [heq]
    exact h _ (ends_piece _)
  · rw [heq]
    exact .cons_cons (.link _ _) (isChain_row hne h _)
  · have hblank : (Segment.link .blank).Follows (.link .listOpening) := .more (Or.inr (by decide))
    have hclosing : (.link .listClosing :: gs).IsChain Follows := h _ (ends_link (by decide))
    have hlist : (.link .listOpening :: (row .comma c.values ++ .link .listClosing :: gs)).IsChain
        Follows := isChain_row hne (fun g hg => .cons_cons (hg .listClosing) hclosing) _
    rw [heq, List.cons_append, List.cons_append, List.append_assoc]
    exact .cons_cons (.link _ _) (.cons_cons hblank hlist)

end Condition

/-! ### Lines of symbols -/

namespace Symbol

open Rulebook.Segment

/-- A symbol in segments. -/
def segments : Symbol → List Segment
  | .condition c => c.segments
  | .not => [.link .not]
  | .opening => [.link .opening]
  | .closing => [.link .closing]
  | .connective .all => [.link .and]
  | .connective .any => [.link .or]

/-- The condition that a symbol is, if it is one. -/
def condition? : Symbol → Option Condition
  | .condition c => some c
  | _ => none

variable {ts : List Symbol} {c : Condition} {place : Place} {g : Segment}

theorem mem_filterMap_condition? : c ∈ ts.filterMap condition? ↔ .condition c ∈ ts := by
  rw [List.mem_filterMap]
  constructor
  · rintro ⟨t, ht, hc⟩
    cases t with
    | condition d => rwa [← Option.some.inj hc]
    | not | opening | closing | connective => cases hc
  · exact fun h => ⟨_, h, rfl⟩

/-- **The payloads in a line are what the operators want.** -/
def Wants (ts : List Symbol) : Prop := ∀ c, .condition c ∈ ts → c.operator.Wants c.value

theorem Wants.head (h : Wants (.condition c :: ts)) : c.operator.Wants c.value :=
  h c List.mem_cons_self

theorem Wants.tail {t : Symbol} (h : Wants (t :: ts)) : Wants ts :=
  fun c hc => h c (List.mem_cons_of_mem t hc)

/-- Such a line is written in its segments. -/
theorem line_flatMap_segments (h : Wants ts) : Segment.line (ts.flatMap segments) = line ts := by
  rw [Segment.line, List.flatMap_assoc, line]
  refine List.flatMap_congr fun t ht => ?_
  cases t with
  | condition c => exact Condition.line_segments (h c ht)
  | not | opening | closing => simp [segments, text, Segment.text, Link.text]
  | connective d => cases d <;> simp [segments, text, Segment.text, Link.text, Connective.word]

/-- They tell the pieces of its conditions. -/
theorem filterMap_piece?_flatMap_segments (h : Wants ts) :
    (ts.flatMap segments).filterMap piece? =
      (ts.filterMap condition?).flatMap Condition.pieces := by
  induction ts with
  | nil => rfl
  | cons t ts ih =>
    rw [List.flatMap_cons, List.filterMap_append, ih h.tail]
    cases t with
    | condition c =>
      rw [List.filterMap_cons_some (by rfl), List.flatMap_cons, segments,
        Condition.filterMap_piece?_segments h.head]
    | not | opening | closing => rfl
    | connective d => cases d <;> rfl

/-- **No two blanks meet in a line**, nor two pieces. -/
theorem isChain_flatMap_segments (h : place.Allows ts) (hwants : Wants ts) (hg : g.LeadsTo place) :
    (g :: (ts.flatMap segments ++ [.link .blank])).IsChain Follows := by
  induction h generalizing g with
  | condition _ ih | negatedCondition _ ih =>
    obtain ⟨l, rfl⟩ := hg
    rw [List.flatMap_cons, List.append_assoc]
    exact Condition.isChain_segments hwants.head (fun _ hends => ih hwants.tail hends) l
  | not _ ih =>
    obtain ⟨l, rfl⟩ := hg
    exact .cons_cons (.more (Or.inr (by decide))) (ih hwants.tail ⟨_, rfl⟩)
  | opening _ ih =>
    obtain ⟨l, rfl⟩ := hg
    exact .cons_cons (.more (Or.inr (by decide))) (ih hwants.tail ⟨_, rfl⟩)
  | closing _ ih => exact .cons_cons (hg _) (ih hwants.tail (ends_link (by decide)))
  | @connective c ts _ ih =>
    cases c with
    | all => exact .cons_cons (hg _) (ih hwants.tail ⟨_, rfl⟩)
    | any => exact .cons_cons (hg _) (ih hwants.tail ⟨_, rfl⟩)
  | nil => exact .cons_cons (hg _) (.singleton _)

end Symbol

/-! ### Rules -/

namespace Rule

open Rulebook.Symbol

variable {catalog : Catalog} {r : Rule} {c : Condition}

mutual

/-- **The conditions of a rule are those in its line**, in the same order. -/
theorem filterMap_condition?_symbols : ∀ r : Rule, r.symbols.filterMap condition? = r.conditions
  | .group c children => filterMap_condition?_intercalate c children
  | .not child => by
    rcases child.condition_or_ne with ⟨c, rfl⟩ | hchild
    · rfl
    · rw [symbols_not hchild, conditions, ← filterMap_condition?_symbols child]
      simp [condition?, List.filterMap_cons]
  | .condition c => rfl

theorem filterMap_condition?_intercalate (c : Connective) : ∀ rs : List Rule,
    ([.connective c].intercalate (symbolsAll rs)).filterMap condition? = conditionsAll rs
  | [] => rfl
  | [r] => by
    simp [symbolsAll, conditionsAll, filterMap_condition?_symbols r]
  | r :: r' :: rs => by
    rw [conditionsAll, ← filterMap_condition?_symbols r,
      ← filterMap_condition?_intercalate c (r' :: rs)]
    simp [symbolsAll, List.intercalate_cons_cons, condition?, List.filterMap_cons]

end

theorem mem_conditions_iff : c ∈ r.conditions ↔ .condition c ∈ r.symbols := by
  rw [← filterMap_condition?_symbols, mem_filterMap_condition?]

/-- The conditions of a rule that goes with a catalog go with it, too. -/
theorem wellFormed_of_mem_conditions (h : r.check catalog = .ok ()) (hc : c ∈ r.conditions) :
    c.WellFormed catalog :=
  (wellFormed_iff_nodes r).1 (check_eq_ok_iff.1 h) _
    (condition_mem_symbols r (mem_conditions_iff.1 hc))

theorem wants_of_mem_conditions (h : r.check catalog = .ok ()) (hc : c ∈ r.conditions) :
    c.operator.Wants c.value := by
  obtain ⟨f, -, -, -, hwants, -⟩ := (wellFormed_of_mem_conditions h hc).typed
  exact hwants

/-- **The words of a rule tell its pieces.** -/
theorem describe_tells (h : r.check catalog = .ok ()) :
    Tells r.describe (r.conditions.flatMap Condition.pieces) := by
  have hwants : Wants r.symbols := fun c hc => wants_of_mem_conditions h (mem_conditions_iff.2 hc)
  refine ⟨r.symbols.flatMap segments, ?_, ?_, ?_⟩
  · refine String.toList_injective ?_
    rw [describe_toList, ← line_flatMap_segments hwants, String.toList_join, List.flatMap_map]
    rfl
  · rw [filterMap_piece?_flatMap_segments hwants, filterMap_condition?_symbols]
  · exact isChain_flatMap_segments (allows_symbols (.of_check h)) hwants ⟨_, rfl⟩

/-- No piece of a rule is written as nothing. -/
theorem text_ne_empty_of_mem_pieces (h : r.check catalog = .ok ()) (hc : c ∈ r.conditions)
    {p : Piece} (hp : p ∈ c.pieces) : p.text ≠ "" := by
  rcases List.mem_cons.1 hp with rfl | hp
  · exact (wellFormed_of_mem_conditions h hc).named
  rcases List.mem_cons.1 hp with rfl | hp
  · rw [Piece.text]
    cases c.operator <;> decide
  · obtain ⟨s, -, rfl⟩ := List.mem_map.1 hp
    exact s.describe_ne_empty

/-- **Nothing is lost in a sentence.** Take a rule that goes with a catalog, and what is decided
when it holds. The sentence is the action in capitals, the word `if`, and a text that tells, for
each condition from left to right, its key, its operator, and all values of its payload. The payload
is what the operator wants, and none of the pieces is written as nothing. -/
theorem sentence_tells (h : r.check catalog = .ok ()) (d : Decision) :
    (∃ text, r.sentence d = Text.upper d.action ++ " if " ++ text ∧
      Tells text (r.conditions.flatMap Condition.pieces)) ∧
    ∀ c ∈ r.conditions, c.operator.Wants c.value ∧ ∀ p ∈ c.pieces, p.text ≠ "" :=
  ⟨⟨r.describe, rfl, describe_tells h⟩, fun _ hc =>
    ⟨wants_of_mem_conditions h hc, fun _ => text_ne_empty_of_mem_pieces h hc⟩⟩

/-- A rule with a payload of each shape. -/
def everyShape : Rule :=
  .group .all [.not (.group .any [.condition (Condition.times "2024" "2025 Q1"),
    .condition (Condition.countries ["US", "N Y"])]), .not (.condition (present "txn.amount")),
    .condition ⟨.eq, "txn.mcc", some (.scalar (.text ""))⟩]

theorem everyShape_tells :
    everyShape.check .builtin = .ok () ∧
      (∃ text, everyShape.sentence ⟨"block"⟩ = "BLOCK if " ++ text ∧
        Tells text [.key "txn.timestamp", .phrase .between, .value (.text "2024"),
          .value (.text "2025 Q1"), .key "txn.country", .phrase .oneOf, .value (.text "US"),
          .value (.text "N Y"), .key "txn.amount", .phrase .isNotNull, .key "txn.mcc", .phrase .eq,
          .value (.text "")]) ∧
      ∀ c ∈ everyShape.conditions, c.operator.Wants c.value ∧ ∀ p ∈ c.pieces, p.text ≠ "" := by
  have hcheck : everyShape.check .builtin = .ok () := by decide +kernel
  obtain ⟨⟨text, hsentence, htells⟩, hpieces⟩ := sentence_tells hcheck ⟨"block"⟩
  have hupper : Text.upper "block" = "BLOCK" := by
    rw [Text.upper_of_ascii (by simp)]
    rfl
  rw [hupper] at hsentence
  exact ⟨hcheck, ⟨text, hsentence, htells⟩, hpieces⟩

end Rule

end Rulebook
