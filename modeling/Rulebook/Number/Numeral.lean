import Rulebook.Number.Decimal

/-!
# Numerals

A **numeral** is an unsigned number as it is spelled: digits, digits after a point,
and an exponent. Both the literals of a check and the numbers of JSON are numerals
with a sign and with conditions of their own on which parts may be empty.

* `Rulebook.Numeral.scan` – the longest numeral a text starts with, and the rest;
* `Rulebook.Numeral.decimal` – what a numeral stands for.
-/

namespace Rulebook

/-! ### Digits -/

/-- The value of a digit. -/
def digitValue (c : Char) : Nat := c.toNat - '0'.toNat

/-- The natural number a sequence of decimal digits stands for. -/
def digitsValue (cs : List Char) : Nat := cs.foldl (fun n c => 10 * n + digitValue c) 0

/-- The digits a text starts with, and the rest. -/
def spanDigits (cs : List Char) : List Char × List Char :=
  (cs.takeWhile Char.isDigit, cs.dropWhile Char.isDigit)

theorem length_spanDigits_snd_le (cs : List Char) : (spanDigits cs).2.length ≤ cs.length :=
  (List.dropWhile_sublist _).length_le

/-! ### Spelled numbers -/

/-- An unsigned number as it is spelled. -/
structure Numeral where
  /-- The digits before the point. -/
  whole : List Char
  /-- The digits after the point, if there is a point. -/
  fraction : Option (List Char)
  /-- The exponent, if there is one: whether it has a minus sign, and its digits. -/
  exponent : Option (Bool × List Char)
deriving DecidableEq, Repr

namespace Numeral

/-- A point and the digits behind it, if the text starts with a point. -/
def scanFraction : List Char → Option (List Char) × List Char
  | '.' :: rest => (some (spanDigits rest).1, (spanDigits rest).2)
  | rest => (none, rest)

/-- The sign of an exponent, if there is one. -/
def scanSign : List Char → Bool × List Char
  | '-' :: rest => (true, rest)
  | '+' :: rest => (false, rest)
  | rest => (false, rest)

/-- An exponent, if the text starts with its mark. -/
def scanExponent : List Char → Option (Bool × List Char) × List Char
  | c :: rest =>
    if c = 'e' ∨ c = 'E' then
      let (negative, digits) := scanSign rest
      (some (negative, (spanDigits digits).1), (spanDigits digits).2)
    else (none, c :: rest)
  | [] => (none, [])

/-- **The longest numeral** that a text starts with, and the rest of the text. Each
part may turn out empty. -/
def scan (cs : List Char) : Numeral × List Char :=
  let (whole, rest) := spanDigits cs
  let (fraction, rest) := scanFraction rest
  let (exponent, rest) := scanExponent rest
  (⟨whole, fraction, exponent⟩, rest)

/-- The exponent as an integer; zero if none is spelled. -/
def power (n : Numeral) : Int :=
  match n.exponent with
  | none => 0
  | some (negative, digits) => if negative then -(digitsValue digits : Int) else digitsValue digits

/-- **What a numeral stands for**: the digits before and after the point as one
number, the point being put back by the exponent. -/
def decimal (n : Numeral) : Decimal :=
  let fraction := n.fraction.getD []
  ⟨digitsValue (n.whole ++ fraction), n.power - (fraction.length : Int)⟩

/-- Whether an exponent, where there is one, has a digit. -/
def exponentSpelled (n : Numeral) : Bool :=
  match n.exponent with
  | none => true
  | some (_, digits) => !digits.isEmpty

/-! ### The rest is no longer than the text -/

theorem length_scanFraction_le (cs : List Char) : (scanFraction cs).2.length ≤ cs.length := by
  unfold scanFraction
  split
  · exact Nat.le_succ_of_le (length_spanDigits_snd_le _)
  · exact Nat.le_refl _

theorem length_scanSign_le (cs : List Char) : (scanSign cs).2.length ≤ cs.length := by
  unfold scanSign
  split <;> simp

theorem length_scanExponent_le (cs : List Char) : (scanExponent cs).2.length ≤ cs.length := by
  unfold scanExponent
  split
  · split
    · exact Nat.le_succ_of_le
        (Nat.le_trans (length_spanDigits_snd_le _) (length_scanSign_le _))
    · exact Nat.le_refl _
  · exact Nat.le_refl _

/-- A digit in front is part of the numeral. -/
theorem length_scan_cons_le {c : Char} (h : c.isDigit = true) (cs : List Char) :
    (scan (c :: cs)).2.length ≤ cs.length := by
  have hspan : (spanDigits (c :: cs)).2.length ≤ cs.length := by
    simpa [spanDigits, List.dropWhile_cons, h] using length_spanDigits_snd_le cs
  exact Nat.le_trans (length_scanExponent_le _) (Nat.le_trans (length_scanFraction_le _) hspan)

theorem length_scan_le (cs : List Char) : (scan cs).2.length ≤ cs.length :=
  Nat.le_trans (length_scanExponent_le _)
    (Nat.le_trans (length_scanFraction_le _) (length_spanDigits_snd_le _))

end Numeral

end Rulebook
