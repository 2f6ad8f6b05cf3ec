import Rulebook.Json.Reader
import Rulebook.Proofs.Json.OrderFree

/-!
# Numbers that are read

A value that has been read holds integers of 64 bits, with a sign or without, and finite binary
numbers: the reader takes a numeral for nothing else. The type of values allows for more, so that
the numbers of a value **fit** is said here, and that they do in whatever is read from a text. It is
an invariant of the reader, kept by every token, since the tokens of a text have it.

* `Rulebook.Json.NumbersFit` – values whose numbers fit;
* `Rulebook.Json.NumbersFit.canonical` – putting members in order changes no number;
* `Rulebook.Reader.step_numbersFit`, `Rulebook.Document.read_numbersFit` – **what is read has
  numbers that fit**.
-/

namespace Rulebook

/-- An integer that 64 bits hold, with a sign or without. -/
def InWords (i : Int) : Prop := Int64.minValue.toInt ≤ i ∧ i < UInt64.size

/-! ### Values -/

namespace Json

/-- **All numbers in the value fit.** -/
inductive NumbersFit : Json → Prop
  | null : NumbersFit .null
  | bool (b : Bool) : NumbersFit (.bool b)
  | integer {i : Int} (hi : InWords i) : NumbersFit (.integer i)
  | real {x : Double} (hx : x.isFinite = true) : NumbersFit (.real x)
  | string (s : String) : NumbersFit (.string s)
  | array {items : List Json} (hitems : ∀ j ∈ items, NumbersFit j) : NumbersFit (.array items)
  | object {members : List (String × Json)} (hmembers : ∀ m ∈ members, NumbersFit m.2) :
    NumbersFit (.object members)

theorem NumbersFit.canonical {j : Json} (h : j.NumbersFit) : j.canonical.NumbersFit := by
  induction h with
  | null => exact .null
  | bool b => exact .bool b
  | integer hi => exact .integer hi
  | real hx => exact .real hx
  | string s => exact .string s
  | array _ ih =>
    refine .array fun j hj => ?_
    rw [canonicalItems_eq_map] at hj
    obtain ⟨i, hi, rfl⟩ := List.mem_map.1 hj
    exact ih i hi
  | object _ ih =>
    refine .object fun m hm => ?_
    have hm' := Keyed.mem_of_mem_gather hm
    rw [canonicalMembers_eq_map] at hm'
    obtain ⟨n, hn, rfl⟩ := List.mem_map.1 hm'
    exact ih n hn

end Json

/-! ### Documents -/

namespace Document

/-- All numbers in the document fit. -/
inductive NumbersFit : Document → Prop
  | null : NumbersFit .null
  | bool (b : Bool) : NumbersFit (.bool b)
  | integer {i : Int} (hi : InWords i) : NumbersFit (.integer i)
  | real {x : Double} (hx : x.isFinite = true) : NumbersFit (.real x)
  | string (s : String) : NumbersFit (.string s)
  | unreadable : NumbersFit .unreadable
  | fault : NumbersFit .fault
  | list {items : List Document} {closed : Bool} (hitems : ∀ d ∈ items, NumbersFit d) :
    NumbersFit (.list items closed)
  | record {members : List (Option String × Document)} {closed : Bool}
    (hmembers : ∀ m ∈ members, NumbersFit m.2) : NumbersFit (.record members closed)

mutual

/-- A document with a value is the document of the value. -/
theorem eq_ofJson : ∀ (d : Document) {j : Json}, d.value? = some j → d = ofJson j
  | .list items true, j, h => by
    obtain ⟨js, hjs, rfl⟩ := Option.map_eq_some_iff.1 h
    rw [ofJson, ← eq_ofItems items hjs]
  | .record members true, j, h => by
    obtain ⟨ms, hms, rfl⟩ := Option.map_eq_some_iff.1 h
    rw [ofJson, ← eq_ofMembers members hms]
  | .null, _, h | .bool _, _, h | .integer _, _, h | .real _, _, h | .string _, _, h => by
    cases h
    rfl

theorem eq_ofItems : ∀ (ds : List Document) {js : List Json}, values? ds = some js →
    ds = ofItems js
  | [], _, h => by
    cases h
    rfl
  | d :: ds, js, h => by
    rw [values?] at h
    split at h
    · next j js' hj hjs =>
      cases h
      rw [ofItems, ← eq_ofJson d hj, ← eq_ofItems ds hjs]
    · cases h

theorem eq_ofMembers : ∀ (ms : List (Option String × Document)) {members : List (String × Json)},
    memberValues? ms = some members → ms = ofMembers members
  | [], _, h => by
    cases h
    rfl
  | (name, d) :: ms, members, h => by
    cases name with
    | none => simp [memberValues?] at h
    | some name =>
      cases hj : d.value? with
      | none => simp [memberValues?, hj] at h
      | some j =>
        cases hrest : memberValues? ms with
        | none => simp [memberValues?, hj, hrest] at h
        | some rest =>
          obtain rfl : (name, j) :: rest = members := by simpa [memberValues?, hj, hrest] using h
          rw [ofMembers, ← eq_ofJson d hj, ← eq_ofMembers ms hrest]

end

/-- The numbers of a value are those of its document. -/
theorem NumbersFit.value {d : Document} (h : d.NumbersFit) {j : Json} (hj : d.value? = some j) :
    j.NumbersFit := by
  obtain rfl := eq_ofJson d hj
  clear hj
  induction j using Json.induction with
  | null => exact .null
  | bool b => exact .bool b
  | integer i => cases h with | integer hi => exact .integer hi
  | real x => cases h with | real hx => exact .real hx
  | string s => exact .string s
  | array items ih =>
    rw [ofJson, ofItems_eq_map] at h
    cases h with | list hitems =>
    exact .array fun j hj => ih j hj (hitems _ (List.mem_map_of_mem hj))
  | object members ih =>
    rw [ofJson, ofMembers_eq_map] at h
    cases h with | record hmembers =>
    exact .object fun m hm => ih m hm (hmembers _ (List.mem_map_of_mem hm))

end Document

/-! ### Tokens -/

namespace Token

/-- A token whose number fits, if it is one. -/
def NumberFits : Token → Prop
  | .integer i => InWords i
  | .real x => x.isFinite = true
  | _ => True

theorem ofNumeral_fits (negative : Bool) (n : Numeral) : (ofNumeral negative n).NumberFits := by
  unfold ofNumeral
  extract_lets i
  split
  · next h =>
    rw [Bool.and_eq_true, decide_eq_true_eq] at h
    exact h.2
  · split
    · next h => exact h
    · trivial

theorem scanNumber_fits (negative : Bool) (cs : List Char) :
    (scanNumber negative cs).1.NumberFits := by
  unfold scanNumber
  simp only
  split
  · exact ofNumeral_fits negative _
  · trivial

theorem scan_fits (c : Char) (rest : List Char) : (scan c rest).1.NumberFits := by
  have hword : ∀ (word : List Char) (t : Token), t.NumberFits →
      (scanWord word t rest).1.NumberFits := by
    intro word t ht
    unfold scanWord
    split
    · exact ht
    · trivial
  unfold scan
  split
  case h_7 =>
    unfold scanString
    split
    · trivial
    · split <;> trivial
  case h_8 => exact scanNumber_fits true rest
  case h_9 => exact hword _ _ trivial
  case h_10 => exact hword _ _ trivial
  case h_11 => exact hword _ _ trivial
  case h_12 =>
    split
    · exact scanNumber_fits false (c :: rest)
    · trivial
  all_goals trivial

theorem tokens_fit (cs : List Char) : ∀ t ∈ tokens cs, t.NumberFits := by
  fun_induction tokens cs with
  | case1 => nofun
  | case2 cs c rest _ ih => exact List.forall_mem_cons.2 ⟨scan_fits c rest, ih⟩

end Token

/-! ### The reader -/

namespace Reader

/-- What has been found in a list or record fits. -/
def Frame.NumbersFit : Frame → Prop
  | .list items => ∀ d ∈ items, d.NumbersFit
  | .record members | .named members _ => ∀ m ∈ members, m.2.NumbersFit

/-- What has been found so far fits. -/
def State.NumbersFit : State → Prop
  | .value stack _ | .more stack => ∀ f ∈ stack, f.NumbersFit
  | .name stack members _ | .colon stack members _ =>
    (∀ f ∈ stack, f.NumbersFit) ∧ ∀ m ∈ members, m.2.NumbersFit
  | .ended root | .stopped root => root.NumbersFit

section

variable {stack : List Frame} {d instead : Document} {items : List Document}
  {members : List (Option String × Document)} {closed : Bool}

theorem list_fit (h : ∀ d ∈ items, d.NumbersFit) :
    (Document.list items.reverse closed).NumbersFit :=
  .list fun d hd => h d (List.mem_reverse.1 hd)

theorem record_fit (h : ∀ m ∈ members, m.2.NumbersFit) :
    (Document.record members.reverse closed).NumbersFit :=
  .record fun m hm => h m (List.mem_reverse.1 hm)

theorem within_fit (hinstead : instead.NumbersFit) (hd : d.NumbersFit) :
    (within stack instead d).NumbersFit := by
  unfold within
  split
  · exact hinstead
  · exact hd

theorem give_fit (hstack : ∀ f ∈ stack, f.NumbersFit) (hd : d.NumbersFit) :
    (give stack d).NumbersFit := by
  cases stack with
  | nil => exact hd
  | cons f stack =>
    obtain ⟨hf, hrest⟩ := List.forall_mem_cons.1 hstack
    cases f <;> exact List.forall_mem_cons.2 ⟨List.forall_mem_cons.2 ⟨hd, hf⟩, hrest⟩

theorem closeAround_fit (hstack : ∀ f ∈ stack, f.NumbersFit) (hd : d.NumbersFit) :
    (closeAround stack d).NumbersFit := by
  induction stack generalizing d with
  | nil => exact hd
  | cons f stack ih =>
    obtain ⟨hf, hrest⟩ := List.forall_mem_cons.1 hstack
    cases f with
    | list items =>
      exact ih hrest (within_fit .fault (list_fit (List.forall_mem_cons.2 ⟨hd, hf⟩)))
    | record members => exact ih hrest (within_fit .fault (record_fit hf))
    | named members name =>
      exact ih hrest (within_fit .fault (record_fit (List.forall_mem_cons.2 ⟨hd, hf⟩)))

theorem stopInRecord_fit (hstack : ∀ f ∈ stack, f.NumbersFit)
    (hmembers : ∀ m ∈ members, m.2.NumbersFit) : (stopInRecord stack members).NumbersFit :=
  closeAround_fit hstack (within_fit .fault (record_fit hmembers))

/-! ### One token -/

variable {t : Token}

/-- Where a value may start. -/
theorem step_value_fit {opened : Bool} (hstack : ∀ f ∈ stack, f.NumbersFit) (ht : t.NumberFits) :
    (step (.value stack opened) t).NumbersFit := by
  have hstop : (State.stopped (closeAround stack .fault)).NumbersFit :=
    closeAround_fit hstack .fault
  cases t with
  | openList => exact List.forall_mem_cons.2 ⟨List.forall_mem_nil _, hstack⟩
  | openRecord => exact ⟨hstack, List.forall_mem_nil _⟩
  | closeList =>
    simp only [step]
    split
    · exact give_fit (List.forall_mem_cons.1 hstack).2
        (within_fit .unreadable (.list (List.forall_mem_nil _)))
    · exact hstop
  | null => exact give_fit hstack .null
  | bool b => exact give_fit hstack (.bool b)
  | integer i => exact give_fit hstack (.integer ht)
  | real x => exact give_fit hstack (.real ht)
  | string s => exact give_fit hstack (.string s)
  | hugeNumber => exact give_fit hstack .unreadable
  | brokenString => exact give_fit hstack .unreadable
  | _ => exact hstop

/-- Where the name of a member may stand. -/
theorem step_name_fit {opened : Bool} (hstack : ∀ f ∈ stack, f.NumbersFit)
    (hmembers : ∀ m ∈ members, m.2.NumbersFit) :
    (step (.name stack members opened) t).NumbersFit := by
  have hstop := stopInRecord_fit hstack hmembers
  cases t with
  | string s => exact ⟨hstack, hmembers⟩
  | brokenString => exact ⟨hstack, hmembers⟩
  | closeRecord =>
    cases opened with
    | false => exact hstop
    | true => exact give_fit hstack (within_fit .unreadable (record_fit hmembers))
  | _ => cases opened <;> exact hstop

/-- Behind a value. -/
theorem step_more_fit (hstack : ∀ f ∈ stack, f.NumbersFit) :
    (step (.more stack) t).NumbersFit := by
  have hstop : (State.stopped (closeAround stack .fault)).NumbersFit :=
    closeAround_fit hstack .fault
  cases stack with
  | nil => exact hstop
  | cons f stack =>
    obtain ⟨hf, hrest⟩ := List.forall_mem_cons.1 hstack
    cases f with
    | list items =>
      have hgiveUp : (State.stopped (closeAround stack
          (within stack .fault (.list items.reverse false)))).NumbersFit :=
        closeAround_fit hrest (within_fit .fault (list_fit hf))
      cases t with
      | comma => exact hstack
      | closeList => exact give_fit hrest (within_fit .unreadable (list_fit hf))
      | _ => exact hgiveUp
    | record members =>
      cases t with
      | comma => exact ⟨hrest, hf⟩
      | closeRecord => exact give_fit hrest (within_fit .unreadable (record_fit hf))
      | _ => exact stopInRecord_fit hrest hf
    | named members name => cases t <;> exact hstop

end

/-- **Every token keeps what has been found fitting.** -/
theorem step_numbersFit {s : State} {t : Token} (hs : s.NumbersFit) (ht : t.NumberFits) :
    (step s t).NumbersFit := by
  cases s with
  | value stack opened => exact step_value_fit hs ht
  | name stack members opened => exact step_name_fit hs.1 hs.2
  | colon stack members name =>
    cases t with
    | colon => exact List.forall_mem_cons.2 ⟨hs.2, hs.1⟩
    | _ => exact stopInRecord_fit hs.1 (List.forall_mem_cons.2 ⟨.fault, hs.2⟩)
  | more stack => exact step_more_fit hs
  | ended root => cases t <;> exact hs
  | stopped root => cases t <;> exact hs

/-- So do many. -/
theorem run_numbersFit {ts : List Token} {s : State} (hs : s.NumbersFit)
    (hts : ∀ t ∈ ts, t.NumberFits) : (ts.foldl step s).NumbersFit := by
  induction ts generalizing s with
  | nil => exact hs
  | cons t ts ih =>
    obtain ⟨ht, hts⟩ := List.forall_mem_cons.1 hts
    exact ih (step_numbersFit hs ht) hts

theorem finish_numbersFit {s : State} (hs : s.NumbersFit) : (finish s).root.NumbersFit := by
  have hbad : (step s .bad).NumbersFit := step_numbersFit hs trivial
  cases s with
  | ended root => exact hs
  | _ =>
    unfold finish
    simp only
    split
    · next root hstop => exact (hstop ▸ hbad : (State.stopped root).NumbersFit)
    · exact .fault

end Reader

/-- **What is read has numbers that fit.** -/
theorem Document.read_numbersFit (text : String) : (read text).root.NumbersFit :=
  Reader.finish_numbersFit (Reader.run_numbersFit nofun (Token.tokens_fit _))

end Rulebook
