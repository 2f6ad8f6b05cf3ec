import Rulebook.Number.Numeral
import Rulebook.Number.Scaling

/-!
# The tokens of JSON text

* `Rulebook.Token` – a token. Two kinds of token are well spelled but have no meaning: a
  number too large for any format, and a string with half of a character in it. Such a
  token may stand in a place that is skipped;
* `Rulebook.Token.keptDecimal` – what is kept of a number with a fraction, an exponent, or
  more digits than 64 bits hold;
* `Rulebook.Token.tokens` – the tokens of a text, up to the first spot where there is none.
-/

namespace Rulebook

/-- A token of JSON text. -/
inductive Token where
  /-- An opening bracket. -/
  | openList
  /-- A closing bracket. -/
  | closeList
  /-- An opening brace. -/
  | openRecord
  /-- A closing brace. -/
  | closeRecord
  /-- A comma. -/
  | comma
  /-- A colon. -/
  | colon
  /-- The word `null`. -/
  | null
  /-- One of the words `true` and `false`. -/
  | bool (b : Bool)
  /-- A number without fraction and exponent that 64 bits hold, with or without sign. -/
  | integer (i : Int)
  /-- Any other number. -/
  | real (x : Double)
  /-- A number that is too large. -/
  | hugeNumber
  /-- A string. -/
  | string (s : String)
  /-- A string with half of a character in it. -/
  | brokenString
  /-- A spot where no token starts. -/
  | bad
deriving DecidableEq, Repr

namespace Token

/-! ### Strings -/

/-- A piece of a string: a character, or a number that an escape spells. -/
inductive Piece where
  /-- A character. -/
  | char (c : Char)
  /-- The number that an escape spells with four hexadecimal digits. -/
  | unit (n : Nat)
deriving DecidableEq, Repr

/-- The value of a hexadecimal digit. -/
def hexValue? (c : Char) : Option Nat :=
  if c.isDigit then some (c.toNat - '0'.toNat)
  else if 'a' ≤ c ∧ c ≤ 'f' then some (c.toNat - 'a'.toNat + 10)
  else if 'A' ≤ c ∧ c ≤ 'F' then some (c.toNat - 'A'.toNat + 10)
  else none

/-- The number that four hexadecimal digits spell. -/
def hexUnit? (a b c d : Char) : Option Nat := do
  let a ← hexValue? a
  let b ← hexValue? b
  let c ← hexValue? c
  let d ← hexValue? d
  return ((a * 16 + b) * 16 + c) * 16 + d

/-- The character that a one-letter escape stands for. -/
def shortEscape? (c : Char) : Option Char :=
  if c = '"' ∨ c = '\\' ∨ c = '/' then some c
  else if c = 'b' then some (Char.ofNat 8)
  else if c = 'f' then some (Char.ofNat 12)
  else if c = 'n' then some '\n'
  else if c = 'r' then some '\r'
  else if c = 't' then some '\t'
  else none

/-- The pieces of a string up to its closing quotation mark, and the rest of the text. A
control character, an unknown escape and the end of the text are not allowed. -/
def scanPieces : List Char → Option (List Piece × List Char)
  | [] => none
  | '"' :: rest => some ([], rest)
  | '\\' :: 'u' :: a :: b :: c :: d :: rest =>
    match hexUnit? a b c d, scanPieces rest with
    | some n, some (ps, rest) => some (.unit n :: ps, rest)
    | _, _ => none
  | '\\' :: e :: rest =>
    match shortEscape? e, scanPieces rest with
    | some c, some (ps, rest) => some (.char c :: ps, rest)
    | _, _ => none
  | c :: rest =>
    if c = '\\' ∨ c.toNat < 32 then none
    else
      match scanPieces rest with
      | some (ps, rest) => some (.char c :: ps, rest)
      | none => none

/-- The characters of a string. Two escapes may spell one character, the first the upper
half and the second the lower half of its number; a half alone is no character. -/
def joinPieces : List Piece → Option (List Char)
  | [] => some []
  | .char c :: ps => (joinPieces ps).map (c :: ·)
  | .unit h :: .unit l :: ps =>
    -- An upper half has to be followed by a lower one, which it takes with it.
    if 0xD800 ≤ h ∧ h < 0xDC00 then
      if 0xDC00 ≤ l ∧ l < 0xE000 then
        (joinPieces ps).map (Char.ofNat (0x10000 + (h - 0xD800) * 0x400 + (l - 0xDC00)) :: ·)
      else none
    else if 0xDC00 ≤ h ∧ h < 0xE000 then none
    else (joinPieces (.unit l :: ps)).map (Char.ofNat h :: ·)
  | .unit h :: ps =>
    if 0xD800 ≤ h ∧ h < 0xE000 then none else (joinPieces ps).map (Char.ofNat h :: ·)

/-- The string token behind an opening quotation mark, and the rest of the text. -/
def scanString (cs : List Char) : Token × List Char :=
  match scanPieces cs with
  | none => (.bad, [])
  | some (ps, rest) =>
    match joinPieces ps with
    | some s => (.string (String.ofList s), rest)
    | none => (.brokenString, rest)

/-! ### Numbers -/

/-- Whether a numeral is spelled as JSON wants it: with digits before the point, zero as
the first of them only alone, and digits behind a point and an exponent mark. -/
def wellSpelled (n : Numeral) : Bool :=
  (match n.whole with
    | [] => false
    | '0' :: _ :: _ => false
    | _ => true) &&
  n.fraction != some [] && n.exponentSpelled

/-- Puts digits behind a number while 64 bits hold the result, and the digits that are
left. -/
def takeDigits (n : Nat) : List Char → Nat × List Char
  | [] => (n, [])
  | c :: cs =>
    if 10 * n + digitValue c < UInt64.size then takeDigits (10 * n + digitValue c) cs
    else (n, c :: cs)

/-- **The decimal that is kept of a numeral**: as many digits before the point as 64 bits
hold, then as many behind it. Digits that are left before the point still count as places,
and those that are left behind it do not. -/
def keptDecimal (n : Numeral) : Decimal :=
  let fraction := n.fraction.getD []
  let (whole, wholeLeft) := takeDigits 0 n.whole
  let (digits, fractionLeft) := takeDigits whole fraction
  ⟨digits, n.power + wholeLeft.length - (fraction.length - fractionLeft.length : Nat)⟩

/-- **The number token that a sign and a numeral spell.** A number without fraction and
exponent is an integer if it lies from `-2 ^ 63` to `2 ^ 64 - 1`; there is no negative
zero among the integers. Of any other number the decimal that is kept is read in steps. -/
def ofNumeral (negative : Bool) (n : Numeral) : Token :=
  let i : Int := if negative then -(digitsValue n.whole : Int) else digitsValue n.whole
  -- The minus sign of a zero would be lost in an integer.
  if n.fraction.isNone && n.exponent.isNone && !(negative && i == 0) &&
      decide (Int64.minValue.toInt ≤ i ∧ i < UInt64.size) then .integer i
  else
    let x : Double := (keptDecimal n).stepwise negative
    if x.isFinite then .real x else .hugeNumber

/-- The number token that a text without its sign starts with, and the rest. -/
def scanNumber (negative : Bool) (cs : List Char) : Token × List Char :=
  let (numeral, rest) := Numeral.scan cs
  if wellSpelled numeral then (ofNumeral negative numeral, rest) else (.bad, [])

/-! ### All tokens -/

/-- A word, if the text starts with it. -/
def scanWord (word : List Char) (token : Token) (cs : List Char) : Token × List Char :=
  if word.isPrefixOf cs then (token, cs.drop word.length) else (.bad, [])

/-- The token that starts with a character, and the rest of the text. -/
def scan (c : Char) (rest : List Char) : Token × List Char :=
  match c with
  | '[' => (.openList, rest)
  | ']' => (.closeList, rest)
  | '\x7b' => (.openRecord, rest)
  | '\x7d' => (.closeRecord, rest)
  | ',' => (.comma, rest)
  | ':' => (.colon, rest)
  | '"' => scanString rest
  | '-' => scanNumber true rest
  | 'n' => scanWord ['u', 'l', 'l'] .null rest
  | 't' => scanWord ['r', 'u', 'e'] (.bool true) rest
  | 'f' => scanWord ['a', 'l', 's', 'e'] (.bool false) rest
  | _ =>
    if c.isDigit then scanNumber false (c :: rest) else (.bad, [])

/-- Whether a character only separates tokens. -/
def separates (c : Char) : Bool := c == ' ' || c == '\n' || c == '\t' || c == '\r'

theorem length_scanPieces_le {cs rest : List Char} {ps : List Piece}
    (h : scanPieces cs = some (ps, rest)) : rest.length ≤ cs.length := by
  fun_induction scanPieces cs generalizing ps rest with
  | case1 => simp at h
  | case2 r => simp_all
  | case3 a b c d r n ps' r' hr hn ih =>
    have := ih hr
    simp only [Option.some.injEq, Prod.mk.injEq] at h
    simp only [List.length_cons, ← h.2]
    omega
  | case5 e r hu c ps' r' hr hc ih =>
    have := ih hr
    simp only [Option.some.injEq, Prod.mk.injEq] at h
    simp only [List.length_cons, ← h.2]
    omega
  | case8 c r hu he hq hc ps' r' hr ih =>
    have := ih hr
    simp only [Option.some.injEq, Prod.mk.injEq] at h
    simp only [List.length_cons, ← h.2]
    omega
  | _ => simp at h

theorem length_scan_le (c : Char) (cs : List Char) : (scan c cs).2.length ≤ cs.length := by
  have word : ∀ (w : List Char) (t : Token), (scanWord w t cs).2.length ≤ cs.length := by
    intro w t
    unfold scanWord
    split <;> simp
  unfold scan
  split
  case h_7 =>
    unfold scanString
    split
    · exact Nat.zero_le _
    · next ps rest h => split <;> exact length_scanPieces_le h
  case h_8 =>
    unfold scanNumber
    simp only
    split
    · exact Numeral.length_scan_le cs
    · exact Nat.zero_le _
  case h_9 => exact word _ _
  case h_10 => exact word _ _
  case h_11 => exact word _ _
  case h_12 =>
    split
    · next hc =>
      unfold scanNumber
      simp only
      split
      · exact Numeral.length_scan_cons_le hc cs
      · exact Nat.zero_le _
    · exact Nat.zero_le _
  all_goals exact Nat.le_refl _

/-- **The tokens of a text.** Nothing follows a spot where no token starts. -/
def tokens (cs : List Char) : List Token :=
  match _h : cs.dropWhile separates with
  | [] => []
  | c :: rest => (scan c rest).1 :: tokens (scan c rest).2
termination_by cs.length
decreasing_by
  have h₁ := length_scan_le c rest
  have h₂ := (List.dropWhile_sublist separates (l := cs)).length_le
  rw [_h] at h₂
  simp only [List.length_cons] at h₂
  omega

end Token

end Rulebook
