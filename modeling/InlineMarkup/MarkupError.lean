import InlineMarkup.Text.Quoted

/-!
# Errors of one region

What can be wrong with the markup of a region, as causes.  A cause arises while reading tokens,
while reading the element, or while writing the call (`Stage`), and most causes come with the
offset in the region's markup at which they arose.

`MarkupError.message` is the one place that words them.
-/

namespace InlineMarkup

/-- Where in the work on a region an error arises. -/
inductive Stage where
  | token
  | element
  | call
deriving DecidableEq, Repr

/-- What is wrong with the markup of a region. -/
inductive MarkupFault where
  /-- A quote that is never closed; the text from the quote on. -/
  | unterminatedString (rest : Text)
  /-- A brace that is never closed; the text from the brace on. -/
  | unterminatedCode (rest : Text)
  /-- An element was expected and something else stands there. -/
  | expectedElement
  /-- No name follows `<`. -/
  | expectedTagName
  /-- The start tag has no end. -/
  | unterminatedStartTag (tag : Text)
  /-- The element has no closing tag. -/
  | unclosedElement (tag : Text)
  /-- No name follows `</`. -/
  | expectedClosingName (tag : Text)
  /-- The closing tag names another element. -/
  | mismatchedClosingTag (found expected : Text)
  /-- The closing tag has no `>`. -/
  | unterminatedClosingTag (tag : Text)
  /-- Something follows the root element; its text. -/
  | contentAfterRoot (tag extra : Text)
  /-- The element has a child of a kind that cannot be written. -/
  | unsupportedChild (kind tag : Text)
  /-- The element has no name. -/
  | emptyTagName
deriving DecidableEq, Repr

namespace MarkupFault

/-- The stage that reports a fault. -/
def stage : MarkupFault → Stage
  | unterminatedString _ | unterminatedCode _ => .token
  | unsupportedChild _ _ | emptyTagName => .call
  | _ => .element

/-- The wording of a fault, without its position. -/
def message : MarkupFault → Text
  | unterminatedString rest => "unterminated string literal " ++ Text.quoted rest
  | unterminatedCode rest => "unterminated code block " ++ Text.quoted rest
  | expectedElement => "expected element start"
  | expectedTagName => "expected tag name after <"
  | unterminatedStartTag tag => "unterminated start tag <" ++ tag ++ ">"
  | unclosedElement tag => "unclosed element <" ++ tag ++ ">"
  | expectedClosingName tag => "expected tag name in closing tag for <" ++ tag ++ ">"
  | mismatchedClosingTag found expected =>
    "mismatched closing tag </" ++ found ++ ">, expected </" ++ expected ++ ">"
  | unterminatedClosingTag tag => "unterminated closing tag </" ++ tag
  | contentAfterRoot tag extra =>
    "unexpected content after root element <" ++ tag ++ ">: " ++ Text.quoted extra
  | unsupportedChild kind tag => "unsupported child node " ++ kind ++ " in <" ++ tag ++ ">"
  | emptyTagName => "element has an empty tag name"

end MarkupFault

/-- A fault and the offset at which it arose, if it has one. -/
structure MarkupError where
  fault : MarkupFault
  position : Option Int
deriving DecidableEq, Repr

namespace MarkupError

/-- A message followed by its position, if it has one. -/
def located (message : Text) : Option Int → Text
  | none => message
  | some position => message ++ " (at offset " ++ Text.ofInt position ++ ")"

/-- The full wording of an error. -/
def message (e : MarkupError) : Text := located e.fault.message e.position

end MarkupError

end InlineMarkup
