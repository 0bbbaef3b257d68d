/-!
# Blank space around a text

The characters of the Unicode property White_Space, and a text without the ones at its two ends.

* `isBlank` is the property, a fixed set of 25 characters;
* `Blank.strip` cuts blanks off both ends and leaves the ones in between.
-/

namespace SystemdControl

/-- The Unicode property White_Space. -/
def isBlank (c : Char) : Bool :=
  let n := c.toNat
  (0x09 ≤ n && n ≤ 0x0d) || n == 0x20 || n == 0x85 || n == 0xa0 || n == 0x1680 ||
    (0x2000 ≤ n && n ≤ 0x200a) || n == 0x2028 || n == 0x2029 || n == 0x202f || n == 0x205f ||
    n == 0x3000

namespace Blank

/-- The characters of a text without the blanks at either end. -/
def stripChars (cs : List Char) : List Char :=
  ((cs.dropWhile isBlank).reverse.dropWhile isBlank).reverse

/-- A text without the blanks at either end. -/
def strip (text : String) : String :=
  .ofList (stripChars text.toList)

theorem toList_strip (text : String) : (strip text).toList = stripChars text.toList := by
  simp [strip]

end Blank

end SystemdControl
