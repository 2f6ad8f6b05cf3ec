import Rulebook.Proofs.Ruleset.Precedence
import Rulebook.Proofs.Ruleset.Validity

/-!
# Precedences are opaque

Two rulesets are alike if they differ in their precedences only, and only in which one there is:
where one of them has a precedence, the other has one too. A precedence that is `null` is none.
Nothing that is done to the two alike and nothing that is asked of them tells them apart, at any
point of their histories.

What is left of a precedence when all that may differ is taken away is whether there is one. This
is a map of precedences that operations do not see, so the two histories are the same one under
that map.

* `Rulebook.Version.AlikePrecedence`, `Rulebook.Version.Alike`, `Rulebook.Ruleset.Alike` – states
  that are alike;
* `Rulebook.Operation.Alike`, `Rulebook.Answer.AlikeResults` – what is asked for, and what comes
  of it;
* `Rulebook.Ruleset.Alike.perform` – one step, and `Rulebook.Ruleset.Alike.after` – a history;
* `Rulebook.Ruleset.Agree` – what is asked of a ruleset without changing it;
* `Rulebook.Ruleset.alike_after_and_agree` – **precedences are opaque**.
-/

namespace Rulebook

/-! ### States that are alike -/

namespace Version

/-- **Precedences that are alike**: there is one on both sides, whichever it is, or on neither. -/
inductive AlikePrecedence : Option Opaque → Option Opaque → Prop where
  /-- There is one on both sides. -/
  | given {o o' : Opaque} (left : o.isNull = false) (right : o'.isNull = false) :
      AlikePrecedence (some o) (some o')
  /-- Each side has none, or `null`. -/
  | missing {p p' : Option Opaque} (left : ∀ o ∈ p, o.isNull = true)
      (right : ∀ o ∈ p', o.isNull = true) : AlikePrecedence p p'

theorem hasPrecedence_eq_false_iff {p : Option Opaque} :
    hasPrecedence p = false ↔ ∀ o ∈ p, o.isNull = true := by
  cases p with
  | none => simp [hasPrecedence]
  | some o => simp [hasPrecedence]

/-- They are alike if there is one on both sides or on neither. -/
theorem alikePrecedence_iff {p p' : Option Opaque} :
    AlikePrecedence p p' ↔ hasPrecedence p = hasPrecedence p' := by
  constructor
  · intro h
    cases h with
    | given left right => simp [hasPrecedence, left, right]
    | missing left right =>
      rw [hasPrecedence_eq_false_iff.mpr left, hasPrecedence_eq_false_iff.mpr right]
  · intro h
    cases hp' : hasPrecedence p' with
    | false =>
      rw [hp'] at h
      exact .missing (hasPrecedence_eq_false_iff.mp h) (hasPrecedence_eq_false_iff.mp hp')
    | true =>
      rw [hp', hasPrecedence, Option.any_eq_true] at h
      rw [hasPrecedence, Option.any_eq_true] at hp'
      obtain ⟨o, rfl, ho⟩ := h
      obtain ⟨o', rfl, ho'⟩ := hp'
      exact .given (by simpa using ho) (by simpa using ho')

/-- **Versions that are alike** differ in their precedences only. -/
structure Alike (v w : Version) : Prop where
  /-- All else is the same. -/
  rest : w = { v with precedence := w.precedence }
  /-- The precedences are alike. -/
  precedence : AlikePrecedence v.precedence w.precedence

end Version

/-- **Rulesets that are alike** differ in the precedences of their versions only. -/
structure Ruleset.Alike (s t : Ruleset) : Prop where
  /-- All else is the same. -/
  rest : t = { s with versions := t.versions }
  /-- The versions are alike, one by one. -/
  versions : List.Forall₂ Version.Alike s.versions t.versions

/-! ### Operations that are alike -/

/-- The change to what is given, or to nothing. -/
def Change.replaceBy {α : Type} : Option α → Change α
  | none => .clear
  | some a => .set a

/-- Changes of the precedence that are alike. -/
inductive Change.Alike : Change Opaque → Change Opaque → Prop where
  /-- Both keep what is there. -/
  | keep : Alike .keep .keep
  /-- Both replace it, by precedences that are alike. -/
  | replaced {p p' : Option Opaque} (precedence : Version.AlikePrecedence p p') :
      Alike (replaceBy p) (replaceBy p')

/-- **Operations that are alike** ask for the same, but for the precedence that they set. -/
inductive Operation.Alike : Operation → Operation → Prop where
  /-- They are the same. -/
  | same (op : Operation) : Alike op op
  /-- They change the settings of the same version. -/
  | settings {id : String} {mode : Option Mode} {c c' : Change Opaque} (change : c.Alike c') :
      Alike (.edit id (.updateSettings mode c)) (.edit id (.updateSettings mode c'))

/-- Answers that are alike. -/
inductive Answer.Alike : Answer → Answer → Prop where
  /-- They are the same. -/
  | same (a : Answer) : Alike a a
  /-- They are versions that are alike. -/
  | version {v w : Version} (version : v.Alike w) : Alike (.version v) (.version w)

/-- **Results that are alike**: successes with answers that are alike, or the same error. -/
inductive Answer.AlikeResults : Except RuleError Answer → Except RuleError Answer → Prop where
  /-- Both succeed. -/
  | ok {a b : Answer} (answer : a.Alike b) : AlikeResults (.ok a) (.ok b)
  /-- Both fail. -/
  | error (x : RuleError) : AlikeResults (.error x) (.error x)

/-! ### What is left of a precedence -/

/-- Of a precedence, whether there is one. -/
def Opaque.presence (p : Option Opaque) : Option Opaque :=
  if Version.hasPrecedence p then some (.ofJson (.bool true)) else none

theorem Opaque.keepsPrecedence_presence : KeepsPrecedence Opaque.presence where
  hasPrecedence_eq p := by
    unfold presence
    split
    · next h => exact h.symm
    · next h =>
      rw [Bool.not_eq_true] at h
      exact h.symm
  none_eq := rfl

theorem Opaque.presence_eq_iff {p p' : Option Opaque} :
    presence p = presence p' ↔ Version.AlikePrecedence p p' := by
  rw [Version.alikePrecedence_iff, presence, presence]
  cases Version.hasPrecedence p <;> cases Version.hasPrecedence p' <;> simp

theorem Change.mapPrecedence_replaceBy {f : Option Opaque → Option Opaque}
    (hf : KeepsPrecedence f) (p : Option Opaque) :
    (replaceBy p).mapPrecedence f = replaceBy (f p) := by
  cases p with
  | none => rw [hf.none_eq]; rfl
  | some o =>
    rw [replaceBy, mapPrecedence]
    cases f (some o) <;> rfl

/-- Operations that are alike are the same under the map. -/
theorem Operation.Alike.presence_eq {op op' : Operation} (h : op.Alike op') :
    op.mapPrecedence Opaque.presence = op'.mapPrecedence Opaque.presence := by
  cases h with
  | same => rfl
  | settings hchange =>
    cases hchange with
    | keep => rfl
    | replaced hp =>
      simp only [Operation.mapPrecedence, VersionEdit.mapPrecedence,
        Change.mapPrecedence_replaceBy Opaque.keepsPrecedence_presence,
        Opaque.presence_eq_iff.mpr hp]

/-- **Versions are alike** exactly if they are the same under the map. -/
theorem Version.presence_eq_iff {v w : Version} :
    v.mapPrecedence Opaque.presence = w.mapPrecedence Opaque.presence ↔ v.Alike w := by
  constructor
  · intro h
    refine ⟨?_, Opaque.presence_eq_iff.mp (congrArg Version.precedence h)⟩
    have hrest := congrArg (fun u : Version => { u with precedence := w.precedence }) h
    exact hrest.symm
  · intro h
    rw [h.rest, mapPrecedence, mapPrecedence, Opaque.presence_eq_iff.mpr h.precedence]

namespace Ruleset

variable {s t : Ruleset}

/-- **Rulesets are alike** exactly if they are the same under the map. -/
theorem presence_eq_iff :
    s.mapPrecedence Opaque.presence = t.mapPrecedence Opaque.presence ↔ s.Alike t := by
  have hversions : ∀ vs ws : List Version, vs.map (Version.mapPrecedence Opaque.presence) =
      ws.map (Version.mapPrecedence Opaque.presence) ↔ List.Forall₂ Version.Alike vs ws := by
    intro vs ws
    rw [← List.forall₂_eq_eq_eq, List.forall₂_map_left_iff, List.forall₂_map_right_iff]
    simp only [Version.presence_eq_iff]
  constructor
  · intro h
    refine ⟨?_, (hversions _ _).mp (congrArg Ruleset.versions h)⟩
    have hrest := congrArg (fun u : Ruleset => { u with versions := t.versions }) h
    exact hrest.symm
  · intro h
    rw [h.rest, mapPrecedence, mapPrecedence, (hversions _ _).mpr h.versions]

end Ruleset

/-- Results that are the same under the map are alike. -/
theorem Answer.alikeResults_of_presence_eq {r r' : Except RuleError Answer}
    (h : r.map (Answer.mapPrecedence Opaque.presence) =
      r'.map (Answer.mapPrecedence Opaque.presence)) : Answer.AlikeResults r r' := by
  rcases r with x | a <;> rcases r' with x' | b
  · obtain rfl := Except.error.inj h
    exact .error x
  · cases h
  · cases h
  · refine .ok ?_
    have hanswer := Except.ok.inj h
    cases a <;> cases b
    case version.version v w => exact .version (Version.presence_eq_iff.mp (version.inj hanswer))
    case entry.entry e e' =>
      obtain rfl := entry.inj hanswer
      exact .same _
    case done.done => exact .same _
    all_goals cases hanswer

/-! ### What is done to rulesets that are alike -/

namespace Ruleset

variable {s t : Ruleset} {op op' : Operation} {ops ops' : List Operation}

/-- **One step.** -/
theorem Alike.perform (h : s.Alike t) (hop : op.Alike op') :
    Answer.AlikeResults (op.perform.run s).1 (op'.perform.run t).1 ∧
      (op.perform.run s).2.Alike (op'.perform.run t).2 := by
  have hleft := op.maps_perform Opaque.keepsPrecedence_presence s
  have hright := op'.maps_perform Opaque.keepsPrecedence_presence t
  rw [hop.presence_eq, presence_eq_iff.mpr h] at hleft
  obtain ⟨hanswer, hstate⟩ := Prod.mk.inj (hleft.symm.trans hright)
  exact ⟨Answer.alikeResults_of_presence_eq hanswer, presence_eq_iff.mp hstate⟩

/-- **A history**, step by step. -/
theorem Alike.after (h : s.Alike t) (hops : List.Forall₂ Operation.Alike ops ops') :
    (s.after ops).Alike (t.after ops') := by
  induction hops generalizing s t with
  | nil => exact h
  | cons hop _ ih => exact ih (h.perform hop).2

/-! ### What is asked of rulesets that are alike -/

/-- **What is asked of a ruleset without changing it** comes out the same. -/
structure Agree (s t : Ruleset) : Prop where
  /-- The check of the ruleset. -/
  check_eq : s.check = t.check
  /-- The checks of its versions. -/
  checks_eq : s.versions.map Version.check = t.versions.map Version.check
  /-- Its status. -/
  derivedStatus_eq : s.derivedStatus = t.derivedStatus
  /-- The order in which the entries of each version are run. -/
  runOrder_eq : s.versions.map Version.runOrder = t.versions.map Version.runOrder

end Ruleset

theorem Version.check_mapPrecedence {f : Option Opaque → Option Opaque} (hf : KeepsPrecedence f)
    (v : Version) : (v.mapPrecedence f).check = v.check := by
  have hentries := @Version.checkEntries_congr v (v.mapPrecedence f) rfl rfl [] [] v.entries
  have hfits : Version.requirePrecedence v.mode (f v.precedence) =
      Version.requirePrecedence v.mode v.precedence := requirePrecedence_map hf v.mode v.precedence
  unfold Version.check
  rw [← hfits, ← hentries]
  rfl

namespace Ruleset

variable {s t : Ruleset} {ops ops' : List Operation} {f : Option Opaque → Option Opaque}

theorem checkVersions_map (hf : KeepsPrecedence f) (id : String) (vs : List Version) :
    checkVersions id (vs.map (Version.mapPrecedence f)) = checkVersions id vs := by
  induction vs with
  | nil => rfl
  | cons v vs ih =>
    rw [List.map_cons, checkVersions_cons, checkVersions_cons, Version.check_mapPrecedence hf, ih]
    rfl

/-- **A map of precedences that operations do not see** is not seen by the questions either. -/
theorem agree_mapPrecedence (hf : KeepsPrecedence f) (s : Ruleset) :
    (s.mapPrecedence f).Agree s where
  check_eq := by
    have hcount : (s.mapPrecedence f).activeCount = s.activeCount := List.countP_map
    unfold check
    rw [hcount, mapPrecedence, checkVersions_map hf]
  checks_eq := by
    rw [mapPrecedence, List.map_map]
    exact List.map_congr_left fun v _ => Version.check_mapPrecedence hf v
  derivedStatus_eq := by
    rw [derivedStatus, derivedStatus, mapPrecedence, List.map_map]
    rfl
  runOrder_eq := by
    rw [mapPrecedence, List.map_map]
    rfl

theorem Alike.agree (h : s.Alike t) : s.Agree t := by
  have hleft := agree_mapPrecedence Opaque.keepsPrecedence_presence s
  have hright := agree_mapPrecedence Opaque.keepsPrecedence_presence t
  rw [presence_eq_iff.mpr h] at hleft
  exact ⟨hleft.check_eq.symm.trans hright.check_eq, hleft.checks_eq.symm.trans hright.checks_eq,
    hleft.derivedStatus_eq.symm.trans hright.derivedStatus_eq,
    hleft.runOrder_eq.symm.trans hright.runOrder_eq⟩

/-- **Precedences are opaque.** Whatever is done alike to rulesets that are alike, they are alike
and come out the same in every question afterwards, and the next step has the same outcome, with
answers that are alike or with the same error. -/
theorem alike_after_and_agree (h : s.Alike t) (hops : List.Forall₂ Operation.Alike ops ops') :
    (s.after ops).Alike (t.after ops') ∧ (s.after ops).Agree (t.after ops') ∧
      ∀ op op' : Operation, op.Alike op' → Answer.AlikeResults
        (op.perform.run (s.after ops)).1 (op'.perform.run (t.after ops')).1 :=
  ⟨h.after hops, (h.after hops).agree, fun _ _ hop => ((h.after hops).perform hop).1⟩

/-- A release of a parallel version, with a precedence. -/
def parallelRelease (precedence : Json) : List Operation :=
  [.edit "rs:v1" (.updateSettings (some .parallel) .keep),
   .edit "rs:v1" (.updateSettings (some .parallel) (.set (.ofJson precedence))),
   .edit "rs:v1" (.addEntry ⟨"limit:1", "limit", .draft, false⟩ true none),
   .newVersion "analyst", .approve "rs:v1" "lead"]

/-- A precedence that is absent and one that is `null`, in the same way replaced by one precedence
and another: the change of the mode before that fails for both, the entry is added for both. -/
theorem alike_after_parallelRelease :
    cardFraud.Alike (cardFraud.mapPrecedence fun _ => some (.ofJson .null)) ∧
      ((cardFraud.after (parallelRelease (.string "block"))).Alike
        ((cardFraud.mapPrecedence fun _ => some (.ofJson .null)).after
          (parallelRelease (.array [.string "allow", .string "block"])))) ∧
      (cardFraud.after (parallelRelease (.string "block"))).versions.map
        (fun v => (v.mode, v.entries.map Entry.id)) =
          [(.parallel, ["rs:v1:limit:1"]), (.parallel, ["rs:v2:limit:1"])] := by
  have halike : cardFraud.Alike (cardFraud.mapPrecedence fun _ => some (.ofJson .null)) := by
    refine ⟨rfl, .cons ⟨rfl, .missing (fun _ h => by cases h) fun o h => ?_⟩ .nil⟩
    obtain rfl := Option.some.inj h
    rfl
  have hops : List.Forall₂ Operation.Alike (parallelRelease (.string "block"))
      (parallelRelease (.array [.string "allow", .string "block"])) :=
    .cons (.same _) <| .cons (.settings (.replaced (.given rfl rfl))) <| .cons (.same _) <|
      .cons (.same _) <| .cons (.same _) .nil
  exact ⟨halike, (alike_after_and_agree halike hops).1, rfl⟩

end Ruleset

end Rulebook
