/-!
# Binary floating-point numbers, exactly

A binary format holds finitely many magnitudes. They are numbered here in
ascending order from zero, so that a magnitude *is* its number
(`Rulebook.Binary.finite`), the next larger one has the next number, and the
number is also the bit pattern of the magnitude in the format's interchange
encoding.

* `Rulebook.Format` – what distinguishes one binary format from another, and
  `Rulebook.Format.num` over `Rulebook.Format.den`, what a magnitude is worth;
* `Rulebook.Format.nearest` – the **nearest magnitude** of a format to a quotient
  of two natural numbers, a half going to the even neighbour;
* `Rulebook.Binary.rank?` – the **rank** of a number, an integer that orders the
  numbers of a format as their values do;
* `Rulebook.Binary.floor?`, `Rulebook.Binary.ceil?` – the integers next to a finite
  number.

All of it is arithmetic on natural numbers and integers: nothing is rounded
except where a definition says so.
-/

namespace Rulebook

/-! ### Rounding a quotient -/

/-- The integer nearest to `num / den`, a half going to the even neighbour. -/
def roundHalfEven (num den : Nat) : Nat :=
  let q := num / den
  let r := num % den
  if 2 * r < den then q
  else if den < 2 * r then q + 1
  else if q % 2 = 0 then q else q + 1

/-- The greatest `k` with `2 ^ k ≤ num / den`, for positive `num` and `den`. The
difference of the two bit lengths is off by at most one. -/
def binaryExponent (num den : Nat) : Int :=
  let k : Int := (num.log2 : Int) - (den.log2 : Int)
  if den * Nat.pow 2 k.toNat ≤ num * Nat.pow 2 (-k).toNat then k else k - 1

/-! ### Formats -/

/-- A binary interchange format. -/
structure Format where
  /-- Bits of the fraction, the leading one not counted. -/
  fractionBits : Nat
  /-- Exponent of two of the least positive magnitude. -/
  minScale : Int
  /-- Number of exponent codes that stand for finite magnitudes. -/
  exponentCodes : Nat
deriving DecidableEq, Repr

namespace Format

/-- The format of 64 bits. -/
def double : Format := ⟨52, -1074, 2047⟩

/-- The format of 32 bits. -/
def single : Format := ⟨23, -149, 255⟩

/-- How many finite magnitudes the format has. -/
def size (f : Format) : Nat := f.exponentCodes * Nat.pow 2 f.fractionBits

/-- The significand of the magnitude numbered `n`: the fraction, with the leading
one in front of it unless the exponent code is zero. -/
def significand (f : Format) (n : Nat) : Nat :=
  let one := Nat.pow 2 f.fractionBits
  if n / one = 0 then n else one + n % one

/-- The exponent of two that the significand of the magnitude numbered `n` is
scaled by. Code zero shares the scale of code one. -/
def scale (f : Format) (n : Nat) : Int :=
  f.minScale + ((n / Nat.pow 2 f.fractionBits - 1 : Nat) : Int)

/-- The numerator of the magnitude numbered `n` as a quotient. -/
def num (f : Format) (n : Nat) : Nat := f.significand n * Nat.pow 2 (f.scale n).toNat

/-- The denominator of the magnitude numbered `n` as a quotient. -/
def den (f : Format) (n : Nat) : Nat := Nat.pow 2 (-f.scale n).toNat

/-- **The nearest magnitude**: the number of the magnitude nearest to `num / den`,
a half going to the even neighbour. The scale is that of the leading bit of the
quotient, but never below the least one; the significand is rounded on that scale.
A significand that rounds up to the next power of two is carried into the exponent
code by the sum. A result of `Format.size` or more means that the quotient is too
large for the format. -/
def nearest (f : Format) (num den : Nat) : Nat :=
  if num = 0 then 0
  else
    -- Below the least scale the significand has fewer bits instead.
    let s := max f.minScale (binaryExponent num den - f.fractionBits)
    let q := roundHalfEven (num * Nat.pow 2 (-s).toNat) (den * Nat.pow 2 s.toNat)
    (s - f.minScale).toNat * Nat.pow 2 f.fractionBits + q

end Format

/-! ### Numbers of a format -/

/-- A number of the binary format `f`. -/
inductive Binary (f : Format) where
  /-- No number: the result of an operation that has none. -/
  | nan
  /-- Beyond every finite number, on the side of its sign. -/
  | infinite (negative : Bool)
  /-- A finite number: its sign and the number of its magnitude. Zero has two
  signs. -/
  | finite (negative : Bool) (magnitude : Fin f.size)
deriving DecidableEq, Repr

/-- A number of the format of 64 bits. -/
abbrev Double := Binary Format.double

/-- A number of the format of 32 bits. -/
abbrev Single := Binary Format.single

namespace Binary

variable {f : Format}

/-- The number of the format nearest to `num / den`, with the given sign; infinite
if the quotient is too large. -/
def ofRatio (negative : Bool) (num den : Nat) : Binary f :=
  if h : f.nearest num den < f.size then .finite negative ⟨f.nearest num den, h⟩
  else .infinite negative

/-- The number of the format nearest to an integer. -/
def ofInt (i : Int) : Binary f := ofRatio (decide (i < 0)) i.natAbs 1

/-- Whether the number is finite. -/
def isFinite : Binary f → Bool
  | .finite _ _ => true
  | _ => false

/-- The number without its sign. -/
def magnitude : Binary f → Binary f
  | .nan => .nan
  | .infinite _ => .infinite false
  | .finite _ m => .finite false m

/-! ### Order -/

/-- **The rank of a number**: the number of its magnitude with its sign, the
infinities lying just outside. The two zeros share rank zero, and `nan` has none. -/
def rank? : Binary f → Option Int
  | .nan => none
  | .infinite s => some (if s then -(f.size : Int) else f.size)
  | .finite s m => some (if s then -(m.val : Int) else m.val)

/-- Whether the first number is at least the second. Nothing is, on either side of
`nan`. -/
def atLeast (x y : Binary f) : Bool :=
  match x.rank?, y.rank? with
  | some a, some b => decide (b ≤ a)
  | _, _ => false

/-! ### The integers next to a number -/

/-- The greatest integer at most `m * 2 ^ k`. -/
def floorScaled (m k : Int) : Int := (m * Nat.pow 2 k.toNat) / Nat.pow 2 (-k).toNat

/-- The least integer at least `m * 2 ^ k`. -/
def ceilScaled (m k : Int) : Int := -floorScaled (-m) k

/-- The significand of a finite number with its sign. -/
def signedSignificand (negative : Bool) (m : Fin f.size) : Int :=
  if negative then -(f.significand m : Int) else f.significand m

/-- The greatest integer at most a finite number; none for the others. -/
def floor? : Binary f → Option Int
  | .finite s m => some (floorScaled (signedSignificand s m) (f.scale m))
  | _ => none

/-- The least integer at least a finite number; none for the others. -/
def ceil? : Binary f → Option Int
  | .finite s m => some (ceilScaled (signedSignificand s m) (f.scale m))
  | _ => none

/-- Whether the number is finite and has no fraction. -/
def isWhole (x : Binary f) : Bool :=
  match x.floor?, x.ceil? with
  | some a, some b => decide (a = b)
  | _, _ => false

/-! ### Encoding -/

/-- The bit pattern of a number in the interchange encoding: the number of its
magnitude with the sign in front; none for `nan`, which has many. -/
def bits? : Binary f → Option Nat
  | .nan => none
  | .infinite s => some (signBit s + f.size)
  | .finite s m => some (signBit s + m.val)
where
  /-- The sign in front of all exponent codes and fractions. -/
  signBit (negative : Bool) : Nat :=
    if negative then (f.exponentCodes + 1) * Nat.pow 2 f.fractionBits else 0

end Binary

end Rulebook
