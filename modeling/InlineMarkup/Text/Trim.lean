import InlineMarkup.Text.Blank

/-!
# Trimming blanks

`trim` removes the blanks at both ends of a text and `trimEnd` those at the end only.
-/

namespace InlineMarkup.Text

/-- The text without the blanks at its end. -/
def trimEnd (t : Text) : Text := ((t.reverse).dropWhile isBlank).reverse

/-- The text without the blanks at its two ends. -/
def trim (t : Text) : Text := trimEnd (t.dropWhile isBlank)

/-- `t.isBraced` holds when the text starts with `{` and ends with `}`. -/
def isBraced (t : Text) : Bool := t.startsWith ['{'] && t.endsWith ['}']

end InlineMarkup.Text
