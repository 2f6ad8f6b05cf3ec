/-!
# Blank characters

A character is **blank** if it has the property White_Space of the Unicode
standard: tabs and line ends, the space, and the spaces and separators beyond
the first 128 characters.

* `Rulebook.Text.isBlank` – the property;
* `Rulebook.Text.trim` – a text without the blank characters at its two ends.
-/

namespace Rulebook.Text

/-- Whether a character is blank. -/
def isBlank (c : Char) : Bool :=
  let n := c.toNat
  (9 ≤ n && n ≤ 13) || n == 32 || n == 0x85 || n == 0xA0 || n == 0x1680 ||
    (0x2000 ≤ n && n ≤ 0x200A) || n == 0x2028 || n == 0x2029 || n == 0x202F ||
    n == 0x205F || n == 0x3000

/-- The characters between the first and the last that are not blank. -/
def trimChars (s : List Char) : List Char :=
  ((s.dropWhile isBlank).reverse.dropWhile isBlank).reverse

/-- A text without the blank characters at its two ends. -/
def trim (s : String) : String := String.ofList (trimChars s.toList)

end Rulebook.Text
