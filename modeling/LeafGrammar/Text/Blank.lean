import LeafGrammar.Text.Ranges

/-!
# Blank characters

Two sets are in use. `isBlank` is the white space that patterns know (`\s`) and
that may surround a number. `isMargin` is what is trimmed from the ends of a
text: the same set with the four information separators U+001C to U+001F.
-/

namespace LeafGrammar.Text

/-- White space: tabs, line and form feeds, spaces of every width, line and
paragraph separators. -/
def blankRanges : Ranges :=
  [(0x09, 0x0D), (0x20, 0x20), (0x85, 0x85), (0xA0, 0xA0), (0x1680, 0x1680), (0x2000, 0x200A),
   (0x2028, 0x2029), (0x202F, 0x202F), (0x205F, 0x205F), (0x3000, 0x3000)]

/-- Is `c` white space? -/
def isBlank (c : Char) : Bool := blankRanges.contains c.toNat

/-- Is `c` white space of the ASCII range? -/
def isAsciiBlank (c : Char) : Bool := c.toNat < 0x80 && isBlank c

/-- Is `c` trimmed from the ends of a text? -/
def isMargin (c : Char) : Bool := isBlank c || (0x1C ≤ c.toNat && c.toNat ≤ 0x1F)

/-- The text without the characters of a class at its ends. -/
def trimBy (p : Char → Bool) (s : List Char) : List Char :=
  ((s.dropWhile p).reverse.dropWhile p).reverse

/-- The text without its margins. -/
def trimMargins (s : List Char) : List Char := trimBy isMargin s

/-- The text without white space at its ends. -/
def trimBlanks (s : List Char) : List Char := trimBy isBlank s

end LeafGrammar.Text
