import Rulebook.Proofs.Text.Words
import Rulebook.Ruleset.Version

/-!
# Ids can be read back

The id of a version is the id of its ruleset and its number, and the id of an entry is the id of
its version and that of a rule version, with separators in between. The parts may hold
separators themselves – a rule version may be called anything – and still the ids are told
apart, because a number is written in digits and a separator is none.

* `Rulebook.Version.idOf_inj` – the number of a version can be read off its id;
* `Rulebook.Version.entryIdOf_inj` – the rule version can be read off the id of an entry, if
  the version is known;
* `Rulebook.Version.entryIdOf_idOf_inj` – so can both, for the versions of one ruleset.
-/

namespace Rulebook.Version

/-- The digits of a number hold no separator. -/
theorem colon_notMem_toDigits (n : Nat) : ':' ∉ Nat.toDigits 10 n := by
  intro h
  have hdigit : (':' : Char).isDigit = true :=
    Nat.isDigit_of_mem_toDigits (by decide) (by decide) h
  exact absurd hdigit (by decide)

theorem toDigits_inj {m n : Nat} (h : Nat.toDigits 10 m = Nat.toDigits 10 n) : m = n := by
  rw [← Nat.ofDigitChars_ten_toDigits (n := m), h, Nat.ofDigitChars_ten_toDigits]

theorem toList_idOf (rulesetId : String) (n : UInt32) :
    (idOf rulesetId n).toList = rulesetId.toList ++ (':' :: 'v' :: Nat.toDigits 10 n.toNat) := by
  simp [idOf]

theorem toList_entryIdOf (versionId ruleVersionId : String) :
    (entryIdOf versionId ruleVersionId).toList =
      versionId.toList ++ ':' :: ruleVersionId.toList := by
  simp [entryIdOf]

variable {rulesetId : String} {m n : UInt32}

/-- **Versions with different numbers have different ids.** -/
theorem idOf_inj : idOf rulesetId m = idOf rulesetId n ↔ m = n := by
  constructor
  · intro h
    have hchars := congrArg String.toList h
    rw [toList_idOf, toList_idOf, List.append_cancel_left_eq] at hchars
    simp only [List.cons.injEq, true_and] at hchars
    exact UInt32.toNat_inj.mp (toDigits_inj hchars)
  · rintro rfl
    rfl

/-- **Entries of one version** for different rule versions have different ids. -/
theorem entryIdOf_inj {versionId a b : String} :
    entryIdOf versionId a = entryIdOf versionId b ↔ a = b := by
  constructor
  · intro h
    have hchars := congrArg String.toList h
    rw [toList_entryIdOf, toList_entryIdOf, List.append_cancel_left_eq] at hchars
    exact String.toList_injective (List.cons.inj hchars).2
  · rintro rfl
    rfl

/-- **Entries of different versions** of a ruleset have different ids, whatever the rule
versions are called: the digits of the number end at the first separator behind them. -/
theorem entryIdOf_idOf_inj {a b : String} :
    entryIdOf (idOf rulesetId m) a = entryIdOf (idOf rulesetId n) b ↔ m = n ∧ a = b := by
  constructor
  · intro h
    have hchars := congrArg String.toList h
    simp only [toList_entryIdOf, toList_idOf, List.append_assoc, List.append_cancel_left_eq,
      List.cons_append, List.cons.injEq, true_and] at hchars
    obtain ⟨hdigits, hrest⟩ := eq_and_eq_of_append_separator (colon_notMem_toDigits _)
      (colon_notMem_toDigits _) hchars
    exact ⟨UInt32.toNat_inj.mp (toDigits_inj hdigits), String.toList_injective hrest⟩
  · rintro ⟨rfl, rfl⟩
    rfl

end Rulebook.Version
