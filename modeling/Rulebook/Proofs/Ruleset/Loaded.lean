import Rulebook.Proofs.Ruleset.SingleActive
import Rulebook.Proofs.Ruleset.Validity

/-!
# Active versions of a ruleset that was loaded

A ruleset that was loaded may give any ids to its versions, and the check does not compare them.
An activation makes all versions with the id active, so the check does not promise that one
version at most is active later on. What does promise it is said here, exactly: ids are apart –
those of the versions there are, and those that new versions will get.

There is one exception, at the end of the numbers: where all versions share their id with the
first one, which is active, and the only number left gives this id again, nothing can be approved
or activated any more.

* `Rulebook.Ruleset.IdsApart`, `Rulebook.Ruleset.Pinned` – the condition, and the exception;
* `Rulebook.Ruleset.idsApart_grown_iff`, `Rulebook.Ruleset.pinned_grown_iff` – a new version
  changes neither;
* `Rulebook.Ruleset.activeCount_after_le_one` – the condition is enough;
* `Rulebook.Ruleset.overfills_of_not_idsApart` – and needed, the exception apart;
* `Rulebook.Ruleset.activeCount_after_le_one_iff` – both together.
-/

namespace Rulebook

namespace Ruleset

variable {s s' : Ruleset} {op : Operation} {a : Answer} {latest v w : Version}
  {id actor createdBy : String} {n : UInt32}

/-! ### The condition -/

/-- A number is **still to come** if it is higher than those of all versions. -/
def IsLater (s : Ruleset) (n : UInt32) : Prop := ∀ v ∈ s.versions, v.number < n

/-- **Ids are apart**: those of the versions from each other and from those that go with the
numbers still to come. -/
structure IdsApart (s : Ruleset) : Prop where
  /-- No two versions have the same id. -/
  nodup : (s.versions.map Version.id).Nodup
  /-- No version has an id that a new one can get. -/
  fresh : ∀ v ∈ s.versions, ∀ n, s.IsLater n → v.id ≠ Version.idOf s.id n

/-- **Nothing but the active version is ever found**: it comes first, and all versions have its
id, those still to come included. -/
def Pinned (s : Ruleset) : Prop :=
  ∃ v vs, s.versions = v :: vs ∧ v.status = .active ∧ (∀ w ∈ vs, w.id = v.id) ∧
    ∀ n, s.IsLater n → Version.idOf s.id n = v.id

/-! ### Starting a version -/

/-- The ruleset with one more version, made from the latest one. -/
def grown (s : Ruleset) (latest : Version) (createdBy : String) : Ruleset :=
  { s with versions := s.versions ++ [s.successor latest createdBy] }

/-- The numbers still to come are that of the version that is started next and those still to
come after it. -/
theorem isLater_iff_grown (hroom : s.HasRoom) (hfound : s.latest? = some latest)
    (createdBy : String) (n : UInt32) :
    s.IsLater n ↔
      n = (s.successor latest createdBy).number ∨ (s.grown latest createdBy).IsLater n := by
  obtain ⟨hlatest, hmax⟩ := latest?_eq_some hfound
  have hnext := toNat_successor_number hroom hlatest createdBy
  have hlater : s.IsLater n ↔ latest.number < n :=
    ⟨fun h => h latest hlatest, fun h v hv => by
      have := UInt32.le_iff_toNat_le.mp (hmax v hv)
      rw [UInt32.lt_iff_toNat_lt] at h ⊢
      omega⟩
  have hgrown : (s.grown latest createdBy).IsLater n ↔
      s.IsLater n ∧ (s.successor latest createdBy).number < n := by
    simp only [IsLater, grown, List.forall_mem_append, List.forall_mem_singleton]
  rw [hgrown, hlater, UInt32.lt_iff_toNat_lt, UInt32.lt_iff_toNat_lt, hnext,
    ← UInt32.toNat_inj, hnext]
  omega

/-- **A new version changes nothing about ids that are apart**: it has the id that the versions
before it had to be apart from. -/
theorem idsApart_grown_iff (hroom : s.HasRoom) (hfound : s.latest? = some latest) :
    (s.grown latest createdBy).IdsApart ↔ s.IdsApart := by
  have hlater := isLater_iff_grown hroom hfound createdBy
  have hids : (s.grown latest createdBy).versions.map Version.id =
      s.versions.map Version.id ++ [(s.successor latest createdBy).id] := by
    simp [grown]
  have hnext : (s.successor latest createdBy).id =
      Version.idOf s.id (s.successor latest createdBy).number := rfl
  constructor
  · rintro ⟨hnodup, hfresh⟩
    rw [hids, List.nodup_append] at hnodup
    refine ⟨hnodup.1, fun v hv n hn => ?_⟩
    rcases (hlater n).mp hn with rfl | hn
    · rw [← hnext]
      exact hnodup.2.2 v.id (List.mem_map_of_mem hv) _ List.mem_cons_self
    · exact hfresh v (List.mem_append_left _ hv) n hn
  · rintro ⟨hnodup, hfresh⟩
    constructor
    · rw [hids, List.nodup_append]
      refine ⟨hnodup, List.nodup_singleton _, fun i hi j hj => ?_⟩
      obtain ⟨v, hv, rfl⟩ := List.mem_map.mp hi
      obtain rfl := List.mem_singleton.mp hj
      exact hfresh v hv _ ((hlater _).mpr (Or.inl rfl))
    · refine List.forall_mem_append.mpr ⟨fun v hv n hn => ?_, List.forall_mem_singleton.mpr ?_⟩
      · exact hfresh v hv n ((hlater n).mpr (Or.inr hn))
      · intro n hn heq
        have hlt : (s.successor latest createdBy).number < n :=
          hn _ (List.mem_append_right _ List.mem_cons_self)
        rw [← Version.idOf_inj.mp heq] at hlt
        exact UInt32.lt_irrefl _ hlt

/-- **Nor does it change whether the active version is all that is found.** -/
theorem pinned_grown_iff (hroom : s.HasRoom) (hfound : s.latest? = some latest) :
    (s.grown latest createdBy).Pinned ↔ s.Pinned := by
  have hlater := isLater_iff_grown hroom hfound createdBy
  constructor
  · rintro ⟨v, ws, hversions, hactive, hsame, hnext⟩
    rcases hvs : s.versions with _ | ⟨u, us⟩
    · have hlatest := (latest?_eq_some hfound).1
      rw [hvs] at hlatest
      exact absurd hlatest List.not_mem_nil
    · rw [grown, hvs, List.cons_append, List.cons.injEq] at hversions
      obtain ⟨rfl, rfl⟩ := hversions
      rw [List.forall_mem_append, List.forall_mem_singleton] at hsame
      refine ⟨u, us, hvs, hactive, hsame.1, fun n hn => ?_⟩
      rcases (hlater n).mp hn with rfl | hn
      · exact hsame.2
      · exact hnext n hn
  · rintro ⟨v, vs, hversions, hactive, hsame, hnext⟩
    refine ⟨v, vs ++ [s.successor latest createdBy], ?_, hactive, ?_, fun n hn => ?_⟩
    · rw [grown, hversions, List.cons_append]
    · refine List.forall_mem_append.mpr ⟨hsame, List.forall_mem_singleton.mpr ?_⟩
      exact hnext _ ((hlater _).mpr (Or.inl rfl))
    · exact hnext n ((hlater n).mpr (Or.inr hn))

/-! ### The condition is enough -/

/-- Whether ids are apart is a matter of the labels alone. -/
theorem IdsApart.of_labels_eq (h : s.IdsApart) (hid : s'.id = s.id)
    (hlabels : s'.labels = s.labels) : s'.IdsApart := by
  constructor
  · rw [ids_eq_map_labels, hlabels, ← ids_eq_map_labels]
    exact h.nodup
  · intro v hv n hn
    obtain ⟨w, hw, hwid, -, -⟩ := exists_mem_of_labels_eq hlabels hv
    have hlater : s.IsLater n := by
      intro u hu
      obtain ⟨u', hu', -, -, hnumber⟩ := exists_mem_of_labels_eq hlabels.symm hu
      rw [← hnumber]
      exact hn u' hu'
    rw [← hwid, hid]
    exact h.fresh w hw n hlater

/-- **Every step keeps ids apart.** -/
theorem IdsApart.step (h : s.IdsApart) (hroom : op.startsVersion = true → s.HasRoom)
    (hperf : s.Performed op a s') : s'.IdsApart := by
  by_cases hop : op.startsVersion = true
  · obtain ⟨createdBy, latest, hfound, -, rfl⟩ := hperf.of_startsVersion hop
    exact (idsApart_grown_iff (hroom hop) hfound).mpr h
  · obtain ⟨hid, hlabels⟩ := hperf.labels_eq (by simpa using hop)
    exact h.of_labels_eq hid hlabels

/-- In a pinned ruleset a look-up finds the active version or nothing. -/
theorem Pinned.status_eq_active (h : s.Pinned) {pre post : List Version}
    (hat : FirstAt (fun u : Version => u.id == id) s.versions pre w post) : w.status = .active := by
  obtain ⟨v, vs, hversions, hactive, hsame, -⟩ := h
  have hid : w.id = id := by simpa using hat.picked
  have hfirst : s.versions.find? (fun u => u.id == id) = some v := by
    have hv : v.id = id := by
      have hw := hat.mem
      rw [hversions] at hw
      rcases List.mem_cons.mp hw with rfl | hw
      · exact hid
      · exact (hsame w hw).symm.trans hid
    simp [hversions, hv]
  obtain rfl := Option.some.inj (hat.find?_eq.symm.trans hfirst)
  exact hactive

/-- **In a pinned ruleset only new versions are started**, and it stays pinned. -/
theorem Pinned.step (h : s.Pinned) (hroom : op.startsVersion = true → s.HasRoom)
    (hperf : s.Performed op a s') : s'.Pinned ∧ s'.activeCount = s.activeCount := by
  cases hperf with
  | @started createdBy latest hfound hfits =>
    refine ⟨(pinned_grown_iff (hroom rfl) hfound).mpr h, ?_⟩
    have hdraft : (s.successor latest createdBy).status = .draft := rfl
    simp [activeCount, hdraft]
  | approved hat hdraft =>
    rw [h.status_eq_active hat] at hdraft
    cases hdraft
  | activated hfound howned hfrozen =>
    obtain ⟨pre, post, hat⟩ := exists_firstAt_of_find? hfound
    rw [h.status_eq_active hat] at hfrozen
    cases hfrozen
  | edited hat hedit =>
    have hdraft := hedit.draft
    rw [h.status_eq_active hat] at hdraft
    cases hdraft

/-- **One version at most is active**, whatever is done to a ruleset whose ids are apart, or to
one that is pinned. -/
theorem activeCount_after_le_one {ops : List Operation} (h : s.IdsApart ∨ s.Pinned)
    (hs : s.activeCount ≤ 1) (hroom : s.HasRoomFor ops) : (s.after ops).activeCount ≤ 1 := by
  have hboth : ((s.after ops).IdsApart ∨ (s.after ops).Pinned) ∧ (s.after ops).activeCount ≤ 1 := by
    refine after_induction (P := fun t => (t.IdsApart ∨ t.Pinned) ∧ t.activeCount ≤ 1) ?_
      ⟨h, hs⟩ hroom
    rintro t op a t' ⟨hapart | hpinned, ht⟩ hroom hperf
    · exact ⟨Or.inl (hapart.step hroom hperf), hperf.activeCount_le_one hapart.nodup ht⟩
    · obtain ⟨hpinned', hcount⟩ := hpinned.step hroom hperf
      exact ⟨Or.inr hpinned', hcount ▸ ht⟩
  exact hboth.2

/-! ### The condition is needed -/

/-- Some history leads to more than one active version. -/
def Overfills (s : Ruleset) : Prop := ∃ ops, s.HasRoomFor ops ∧ 1 < (s.after ops).activeCount

/-- What can be done after a step can be done before it. -/
theorem Overfills.of_performed (hs : s'.Overfills) (h : s.Performed op a s')
    (hroom : op.startsVersion = true → s.HasRoom) : s.Overfills := by
  obtain ⟨ops, hops, hcount⟩ := hs
  have hrun : (op.perform.run s).2 = s' := by rw [Operation.run_perform_eq_ok_iff.mpr h]
  refine ⟨op :: ops, ⟨hroom, ?_⟩, ?_⟩
  · rw [hrun]
    exact hops
  · rw [after_cons, hrun]
    exact hcount

/-- **Where an id comes twice, an activation makes two versions active**, if it is possible. -/
theorem overfills_of_approved (hfound : s.version? id = some v) (happroved : v.status = .approved)
    (htwice : 1 < (s.versions.map Version.id).count id) : s.Overfills := by
  have hperf : s.Performed (.activation none id s.createdBy) _ _ := .activated hfound
    (fun o ho => absurd ho (by simp)) happroved
  refine Overfills.of_performed ⟨[], trivial, ?_⟩ hperf fun hop => nomatch hop
  rw [List.count_eq_countP, List.countP_map] at htwice
  change 1 < (s.versions.map (promote id s.createdBy)).countP fun w => w.status == .active
  rw [countP_active_map_promote]
  exact htwice

/-- **A draft that is found can be approved**; after that it is found approved, and what is found
by other ids is the same as before. -/
theorem exists_performed_approve (hfound : s.version? id = some v) (hdraft : v.status = .draft) :
    ∃ a s', s.Performed (.approve id s.createdBy) a s' ∧
      s'.version? id = some (v.freeze s.createdBy) ∧
      ∀ other, other ≠ id → s'.version? other = s.version? other := by
  obtain ⟨pre, post, hat⟩ := exists_firstAt_of_find? hfound
  have hid : v.id = id := by simpa using hat.picked
  refine ⟨_, _, .approved hat hdraft, ?_, fun other hne => ?_⟩
  · exact (hat.replace (y := v.freeze s.createdBy) hat.picked).find?_eq
  · have hpass : (v.id == other) = false := by
      rw [hid, beq_eq_false_iff_ne]
      exact hne.symm
    exact hat.find?_replace hpass hpass

/-- A draft can be approved first. -/
theorem overfills_of_ne_active (hfound : s.version? id = some v) (hstatus : v.status ≠ .active)
    (htwice : 1 < (s.versions.map Version.id).count id) : s.Overfills := by
  cases hdraft : v.status with
  | active => exact absurd hdraft hstatus
  | approved => exact overfills_of_approved hfound hdraft htwice
  | draft =>
    obtain ⟨a, s', hperf, hnext, -⟩ := exists_performed_approve hfound hdraft
    refine Overfills.of_performed (overfills_of_approved hnext rfl ?_) hperf fun hop => nomatch hop
    rw [hperf.ids_eq rfl]
    exact htwice

/-- **An active version can be made to give way** to an approved one with another id, and then
be activated again together with those that have its id. -/
theorem overfills_of_approved_other {other : String} (hfound : s.version? id = some v)
    (hother : s.version? other = some w) (hne : v.id ≠ other) (happroved : w.status = .approved)
    (htwice : 1 < (s.versions.map Version.id).count id) : s.Overfills := by
  have hperf : s.Performed (.activation none other s.createdBy) _ _ := .activated hother
    (fun o ho => absurd ho (by simp)) happroved
  refine Overfills.of_performed ?_ hperf fun hop => nomatch hop
  have hnext : (s.mapVersions (promote other s.createdBy)).version? id =
      some (promote other s.createdBy v) := version?_mapVersions_promote hfound
  refine overfills_of_ne_active hnext (mt promote_status_eq_active_iff.mp hne) ?_
  rw [hperf.ids_eq rfl]
  exact htwice

/-- A draft with another id can be approved first. -/
theorem overfills_of_other {other : String} (hfound : s.version? id = some v)
    (hother : s.version? other = some w) (hne : v.id ≠ other) (hstatus : w.status ≠ .active)
    (htwice : 1 < (s.versions.map Version.id).count id) : s.Overfills := by
  cases hdraft : w.status with
  | active => exact absurd hdraft hstatus
  | approved => exact overfills_of_approved_other hfound hother hne hdraft htwice
  | draft =>
    obtain ⟨a, s', hperf, hnext, hkept⟩ := exists_performed_approve hother hdraft
    have hvid : v.id = id := by simpa using List.find?_some hfound
    have hfound' : s'.version? id = some v := by
      rw [hkept id (hvid ▸ hne)]
      exact hfound
    refine Overfills.of_performed ?_ hperf fun hop => nomatch hop
    refine overfills_of_approved_other hfound' hnext hne rfl ?_
    rw [hperf.ids_eq rfl]
    exact htwice

/-- A number that is still to come needs room. -/
theorem IsLater.hasRoom (h : s.IsLater n) : s.HasRoom := by
  intro v hv
  have hlt := UInt32.lt_iff_toNat_lt.mp (h v hv)
  have hsize := n.toNat_lt_size
  omega

theorem exists_version?_of_mem (hv : v ∈ s.versions) : ∃ w, s.version? v.id = some w := by
  rw [← Option.isSome_iff_exists, version?, List.find?_isSome]
  exact ⟨v, hv, by simp⟩

/-- **At the end of the numbers**, where no new version can come, an id that comes twice is
enough, unless nothing but the active version is ever found. -/
theorem overfills_of_not_hasRoom (hs : s.activeCount ≤ 1) (hfull : ¬s.HasRoom)
    (hapart : ¬s.IdsApart) (hpinned : ¬s.Pinned) : s.Overfills := by
  have hnone : ∀ n, ¬s.IsLater n := fun n hn => hfull hn.hasRoom
  have hdup : ¬(s.versions.map Version.id).Nodup :=
    fun hnodup => hapart ⟨hnodup, fun v _ n hn => absurd hn (hnone n)⟩
  obtain ⟨id, htwice⟩ : ∃ id, 1 < (s.versions.map Version.id).count id := by
    rw [List.nodup_iff_count, not_forall] at hdup
    obtain ⟨id, hcount⟩ := hdup
    exact ⟨id, Nat.not_le.mp hcount⟩
  have hid : id ∈ s.versions.map Version.id :=
    List.count_pos_iff.mp (Nat.lt_trans Nat.zero_lt_one htwice)
  obtain ⟨u, hu, rfl⟩ := List.mem_map.mp hid
  obtain ⟨v, hfound⟩ := exists_version?_of_mem hu
  have hv : v ∈ s.versions := List.mem_of_find?_eq_some hfound
  have hvid : v.id = u.id := by simpa using List.find?_some hfound
  by_cases hactive : v.status = .active
  · by_cases hall : ∀ w ∈ s.versions, w.id = v.id
    · -- All ids are the same, so what is found is what comes first.
      refine absurd ?_ hpinned
      rcases hversions : s.versions with _ | ⟨f, vs⟩
      · rw [hversions] at hv
        exact absurd hv List.not_mem_nil
      · rw [hversions, List.forall_mem_cons] at hall
        have hf : (f.id == u.id) = true := by simp [hall.1, hvid]
        rw [version?, hversions, List.find?_cons_of_pos (by simp [hf])] at hfound
        obtain rfl := Option.some.inj hfound
        exact ⟨f, vs, hversions, hactive, hall.2, fun n hn => absurd hn (hnone n)⟩
    · simp only [not_forall] at hall
      obtain ⟨w, hw, hne⟩ := hall
      obtain ⟨t, hother⟩ := exists_version?_of_mem hw
      have ht : t ∈ s.versions := List.mem_of_find?_eq_some hother
      have htid : t.id = w.id := by simpa using List.find?_some hother
      refine overfills_of_other hfound hother (Ne.symm hne) (fun htactive => hne ?_) htwice
      rw [← htid]
      exact id_eq_of_active hs ht hv htactive hactive
  · exact overfills_of_ne_active hfound hactive htwice

/-- **More than one version can become active** as soon as ids are not apart, unless the ruleset
is pinned. -/
theorem overfills_of_not_idsApart
    (hfits : ∀ v ∈ s.versions, v.mode = .parallel → Version.hasPrecedence v.precedence = true)
    (hs : s.activeCount ≤ 1) (hapart : ¬s.IdsApart) (hpinned : ¬s.Pinned) : s.Overfills := by
  -- New versions are started until the numbers are used up; `k` bounds how many they are.
  have hleft : ∃ k, ∃ v ∈ s.versions, UInt32.size ≤ v.number.toNat + 1 + k := by
    rcases hversions : s.versions with _ | ⟨v, vs⟩
    · refine absurd ⟨?_, fun v hv => ?_⟩ hapart
      · simp [hversions]
      · rw [hversions] at hv
        exact absurd hv List.not_mem_nil
    · exact ⟨UInt32.size, v, List.mem_cons_self, by omega⟩
  obtain ⟨k, hk⟩ := hleft
  induction k generalizing s with
  | zero =>
    obtain ⟨v, hv, hsize⟩ := hk
    refine overfills_of_not_hasRoom hs (fun hroom => ?_) hapart hpinned
    have hlt := hroom v hv
    omega
  | succ k ih =>
    by_cases hroom : s.HasRoom
    · obtain ⟨v, hv, hsize⟩ := hk
      rcases hfound : s.latest? with _ | latest
      · rw [latest?_eq_none.mp hfound] at hv
        exact absurd hv List.not_mem_nil
      obtain ⟨hlatest, hmax⟩ := latest?_eq_some hfound
      have hnumber := toNat_successor_number hroom hlatest s.createdBy
      have hle := UInt32.le_iff_toNat_le.mp (hmax v hv)
      have hdraft : (s.successor latest s.createdBy).status = .draft := rfl
      have hperf : s.Performed (.newVersion s.createdBy) _ _ :=
        .started hfound (hfits latest hlatest)
      refine Overfills.of_performed (ih ?_ ?_ ?_ ?_ ?_) hperf fun _ => hroom
      · exact List.forall_mem_append.mpr
          ⟨hfits, List.forall_mem_singleton.mpr (hfits latest hlatest)⟩
      · simpa [activeCount, hdraft] using hs
      · exact fun h => hapart ((idsApart_grown_iff hroom hfound).mp h)
      · exact fun h => hpinned ((pinned_grown_iff hroom hfound).mp h)
      · exact ⟨_, List.mem_append_right _ List.mem_cons_self, by omega⟩
    · exact overfills_of_not_hasRoom hs hroom hapart hpinned

/-- **When a ruleset that the check accepts keeps to one active version**, whatever is done to
it while the numbers last: exactly if ids are apart, or the ruleset is pinned. -/
theorem activeCount_after_le_one_iff (h : s.check = .ok ()) :
    (∀ ops, s.HasRoomFor ops → (s.after ops).activeCount ≤ 1) ↔ s.IdsApart ∨ s.Pinned := by
  obtain ⟨hvalid, hs⟩ := check_eq_ok_iff.mp h
  constructor
  · intro hsafe
    by_contra hneither
    obtain ⟨hapart, hpinned⟩ := not_or.mp hneither
    obtain ⟨ops, hroom, hcount⟩ := overfills_of_not_idsApart
      (fun v hv => (hvalid v hv).2.precedence) hs hapart hpinned
    exact absurd (hsafe ops hroom) (Nat.not_le.mpr hcount)
  · intro hcondition ops hroom
    exact activeCount_after_le_one hcondition hs hroom

/-- An approved version, as it may be loaded. -/
def loadedVersion (id : String) (number : UInt32) : Version :=
  { id
    rulesetId := "rs"
    number
    status := .approved
    mode := .sequential
    precedence := none
    createdBy := "analyst"
    approvedBy := some "lead"
    activatedBy := none
    entries := [] }

/-- A ruleset whose versions have ids that are not made from their numbers. -/
def loaded : Ruleset :=
  { cardFraud with versions := [loadedVersion "rv1" 1, loadedVersion "rv2" 7] }

theorem idsApart_loaded : loaded.IdsApart := by
  refine ⟨by decide, fun v hv n _ heq => ?_⟩
  have hchars := congrArg String.toList heq
  rw [Version.toList_idOf] at hchars
  rcases List.mem_cons.mp hv with rfl | hv
  · cases hchars
  · obtain rfl := List.mem_singleton.mp hv
    cases hchars

theorem activeCount_after_loaded :
    loaded.check = .ok () ∧
      ∀ ops, loaded.HasRoomFor ops → (loaded.after ops).activeCount ≤ 1 := by
  have hcheck : loaded.check = .ok () := rfl
  exact ⟨hcheck, (activeCount_after_le_one_iff hcheck).mpr (Or.inl idsApart_loaded)⟩

/-- A ruleset with two versions of the same id. -/
def twins : Ruleset :=
  { cardFraud with versions := [loadedVersion "dup" 1, loadedVersion "dup" 2] }

/-- **The check accepts a ruleset that the next step takes out of its bounds**: both versions
with the id that is activated become active. -/
theorem severalActive_after_twins :
    twins.check = .ok () ∧ twins.HasRoomFor [.activate "dup" "lead"] ∧
      (twins.after [.activate "dup" "lead"]).activeCount = 2 ∧
      (twins.after [.activate "dup" "lead"]).check = .error (.conflict .severalActive) :=
  ⟨rfl, by decide, by decide, rfl⟩

end Ruleset

end Rulebook
