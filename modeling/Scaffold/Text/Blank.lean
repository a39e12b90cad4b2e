/-!
# Blanks

The blanks of a text are the characters with the white space property of the
Unicode standard: the ASCII controls from tab to carriage return, the space,
the next line control, the no-break space and the spaces and separators of the
general punctuation block and beyond.

Trimming takes the characters to drop as a predicate, since the formats of this
library do not agree on what a blank is.  It works on lists of characters.
-/

namespace Scaffold.Text

/-- White space in the sense of the Unicode standard. -/
def isBlank (c : Char) : Bool :=
  let n := c.toNat
  (9 ≤ n && n ≤ 13) || n == 0x20 || n == 0x85 || n == 0xA0 || n == 0x1680
    || (0x2000 ≤ n && n ≤ 0x200A) || n == 0x2028 || n == 0x2029 || n == 0x202F
    || n == 0x205F || n == 0x3000

/-- A text without the leading characters that satisfy `p`. -/
def trimStart (p : Char → Bool) (cs : List Char) : List Char := cs.dropWhile p

/-- A text without the trailing characters that satisfy `p`. -/
def trimEnd (p : Char → Bool) (cs : List Char) : List Char := (cs.reverse.dropWhile p).reverse

/-- A text without the leading and trailing characters that satisfy `p`. -/
def trim (p : Char → Bool) (cs : List Char) : List Char := trimEnd p (trimStart p cs)

end Scaffold.Text
