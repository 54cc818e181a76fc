import InlineMarkup.Text.CodeRanges

/-!
# Blanks

The characters that separate words and are trimmed from the ends of a text: the tab, the line
and page breaks, the four information separators, and the space characters of Unicode 14.  The
zero-width characters are not among them.
-/

namespace InlineMarkup.Text

/-- The blank characters, as closed ranges of code points in increasing order. -/
def blankRanges : List (Nat × Nat) :=
  [(0x9, 0xd), (0x1c, 0x20),
   (0x85, 0x85), (0xa0, 0xa0), (0x1680, 0x1680), (0x2000, 0x200a), (0x2028, 0x2029),
  (0x202f, 0x202f), (0x205f, 0x205f), (0x3000, 0x3000)]

/-- `isBlank c` holds of the characters that trimming removes. -/
def isBlank (c : Char) : Bool := inRanges blankRanges c.toNat

end InlineMarkup.Text
