import InlineMarkup.Text.Quoted

/-!
# Tokens

The pieces that the markup of a region is read into.  A token keeps the characters it was read
from and the offset of the first of them.
-/

namespace InlineMarkup

/-- The kinds of token. -/
inductive Token.Kind where
  /-- `<` -/
  | opening
  /-- `</` -/
  | closing
  /-- `>` -/
  | tagEnd
  /-- `/>` -/
  | emptyTagEnd
  /-- The name after `<` or `</`. -/
  | tagName
  /-- A name in an attribute list. -/
  | propName
  /-- `=` -/
  | equals
  /-- A quoted literal, quotes included. -/
  | string
  /-- A braced block, braces included. -/
  | code
  /-- Running text. -/
  | text
deriving DecidableEq, Repr, Inhabited

/-- A token: its kind, its characters and the offset of the first. -/
structure Token where
  kind : Token.Kind
  lexeme : Text
  position : Int := 0
deriving DecidableEq, Repr, Inhabited

namespace Token

/-- The name under which a kind is shown. -/
def Kind.label : Kind → Text
  | opening => "OPEN_TAG"
  | closing => "CLOSING_OPEN_TAG"
  | tagEnd => "CLOSE_TAG"
  | emptyTagEnd => "SELF_CLOSING_TAG"
  | tagName => "TAG_NAME"
  | propName => "PROP_NAME"
  | equals => "EQUALS"
  | string => "STRING_LITERAL"
  | code => "CODE_BLOCK"
  | text => "TEXT_CONTENT"

/-- Every kind, in the order of its declaration. -/
def Kind.all : List Kind :=
  [opening, closing, tagEnd, emptyTagEnd, tagName, propName, equals, string, code, text]

/-- The kind shown under a name. -/
def Kind.ofLabel? (label : Text) : Option Kind := Kind.all.find? fun k => k.label == label

/-- A token on one line. -/
def shown (t : Token) : Text :=
  "Token(" ++ t.kind.label ++ ", " ++ Text.quoted t.lexeme ++ ", pos=" ++ Text.ofInt t.position ++
    ")"

end Token

end InlineMarkup
