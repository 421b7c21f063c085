/-!
# Blank characters

The white space of every script: the controls that move the position, the information separators,
and the spaces and line separators beyond ASCII. Texts are stripped of them, and patterns skip them.
-/

namespace Scorecard

/-- Whether the character is white space. -/
def isBlank (c : Char) : Bool :=
  let code := c.toNat
  (9 ≤ code && code ≤ 13) || (28 ≤ code && code ≤ 32) || code == 0x85 || code == 0xA0 ||
    code == 0x1680 || (0x2000 ≤ code && code ≤ 0x200A) || code == 0x2028 || code == 0x2029 ||
    code == 0x202F || code == 0x205F || code == 0x3000

/-- The text without its leading white space. -/
def stripLeft (text : List Char) : List Char :=
  text.dropWhile isBlank

/-- The text without its trailing white space. -/
def stripRight (text : List Char) : List Char :=
  (text.reverse.dropWhile isBlank).reverse

/-- The text without the white space at its ends. -/
def strip (text : List Char) : List Char :=
  stripRight (stripLeft text)

end Scorecard
