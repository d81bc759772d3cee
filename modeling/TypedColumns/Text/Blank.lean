/-!
# Blank characters

A name is looked up without the blanks around it.  Blank is every character with the Unicode property `White_Space`:
the ASCII blanks and the no-break, typographic, line and paragraph spaces.

* `isBlank` -- the property.
* `trim` -- a text without the blanks at both ends.
-/

namespace TypedColumns.Text

/-- Whether a character has the Unicode property `White_Space`. -/
def isBlank (c : Char) : Bool :=
  let n := c.toNat
  (0x9 ≤ n && n ≤ 0xD) || n == 0x20 || n == 0x85 || n == 0xA0 || n == 0x1680 || (0x2000 ≤ n && n ≤ 0x200A)
    || n == 0x2028 || n == 0x2029 || n == 0x202F || n == 0x205F || n == 0x3000

/-- Characters without the blanks at both ends. -/
def trimChars (cs : List Char) : List Char :=
  ((cs.dropWhile isBlank).reverse.dropWhile isBlank).reverse

/-- A text without the blanks at both ends. -/
def trim (s : String) : String := String.ofList (trimChars s.toList)

end TypedColumns.Text
