import InlineMarkup.Element
import InlineMarkup.MarkupError
import InlineMarkup.Text.Trim
import InlineMarkup.Token

/-!
# Reading elements

    element   ::=  `<` name attribute* ( `/>`  |  `>` child* `</` name `>` )
    attribute ::=  prop [ `=` ] ( string | code )
    child     ::=  text | code | element

The two names have to agree.  The reading is lenient in two places: in an attribute list every
token that is no part of an attribute is passed over, and so is, between children, every token
that cannot start a child or a closing tag.

A reader takes the tokens that are left and gives back those it leaves.  A failure, too, tells
which tokens were left when it arose.
-/

namespace InlineMarkup

/-- Takes the outer pair of braces off a code token, and the blanks inside and outside of it. -/
def Text.unbraced (t : Text) : Text :=
  let code := Text.trim t
  Text.trim (if Text.isBraced code then (code.drop 1).dropLast else code)

namespace Element

/-- Why an element could not be read, and the tokens left at that point. -/
structure Failure where
  error : MarkupError
  rest : List Token
deriving DecidableEq, Repr

/-- The error with this fault at this position. -/
def Failure.at (fault : MarkupFault) (position : Option Int) (rest : List Token) : Failure :=
  ⟨⟨fault, position⟩, rest⟩

/-! ## 1. The start tag -/

/-- The attributes up to the end of a tag, added to the props read so far. -/
def attributes (strings codes : Props) : List Token → Props × Props × List Token
  | [] => (strings, codes, [])
  | ⟨.tagEnd, l, p⟩ :: rest => (strings, codes, ⟨.tagEnd, l, p⟩ :: rest)
  | ⟨.emptyTagEnd, l, p⟩ :: rest => (strings, codes, ⟨.emptyTagEnd, l, p⟩ :: rest)
  | ⟨.propName, name, _⟩ :: ⟨.string, value, _⟩ :: rest =>
    attributes (Props.set name value strings) codes rest
  | ⟨.propName, name, _⟩ :: ⟨.code, value, _⟩ :: rest =>
    attributes strings (Props.set name (Text.unbraced value) codes) rest
  | ⟨.propName, name, _⟩ :: ⟨.equals, _, _⟩ :: ⟨.string, value, _⟩ :: rest =>
    attributes (Props.set name value strings) codes rest
  | ⟨.propName, name, _⟩ :: ⟨.equals, _, _⟩ :: ⟨.code, value, _⟩ :: rest =>
    attributes strings (Props.set name (Text.unbraced value) codes) rest
  | _ :: rest => attributes strings codes rest

/-- A start tag: where it stands, what it says, and whether it ends in `/>`. -/
structure StartTag where
  position : Int
  tag : Text
  strings : Props
  codes : Props
  isEmpty : Bool
deriving DecidableEq, Repr

/-- The element of a start tag with these children. -/
def StartTag.element (s : StartTag) (children : List Node) : Element :=
  { tag := s.tag, strings := s.strings, codes := s.codes, children }

/-- Reads a start tag.  `last` is the position reported when no token is left. -/
def startTag (last : Option Int) : List Token → Except Failure (StartTag × List Token)
  | [] => .error (.at .expectedElement last [])
  | start :: rest =>
    if start.kind ≠ .opening then
      .error (.at .expectedElement (some start.position) (start :: rest))
    else
      match rest with
      | [] => .error (.at .expectedTagName (some start.position) [])
      | name :: rest =>
        if name.kind ≠ .tagName then
          .error (.at .expectedTagName (some start.position) (name :: rest))
        else
          let (strings, codes, rest) := attributes [] [] rest
          match rest with
          | ⟨.emptyTagEnd, _, _⟩ :: rest =>
            .ok (⟨start.position, name.lexeme, strings, codes, true⟩, rest)
          | ⟨.tagEnd, _, _⟩ :: rest =>
            .ok (⟨start.position, name.lexeme, strings, codes, false⟩, rest)
          | rest =>
            .error (.at (.unterminatedStartTag name.lexeme) (some start.position) rest)

/-! ## 2. Children and the closing tag -/

/-- Reads the name and the end of a closing tag that stands at `position`, given the tokens after
its `</`; a failure leaves `all` the tokens. -/
def closingTag (tag : Text) (position : Int) (all : List Token) :
    List Token → Except Failure (List Token)
  | [] => .error (.at (.expectedClosingName tag) (some position) all)
  | name :: rest =>
    if name.kind ≠ .tagName then
      .error (.at (.expectedClosingName tag) (some position) all)
    else if name.lexeme ≠ tag then
      .error (.at (.mismatchedClosingTag name.lexeme tag) (some position) all)
    else
      match rest with
      | ⟨.tagEnd, _, _⟩ :: rest => .ok rest
      | _ => .error (.at (.unterminatedClosingTag tag) (some position) all)

/-- Reads the children of an element and its closing tag.  Every round takes a token, so as many
rounds as there are tokens, and one for the end, are enough. -/
def childNodes (rounds : Nat) (last : Option Int) (start : StartTag) (ts : List Token) :
    Except Failure (List Node × List Token) :=
  match rounds, ts with
  | 0, ts => .error (.at (.unclosedElement start.tag) (some start.position) ts)
  | _ + 1, [] => .error (.at (.unclosedElement start.tag) (some start.position) [])
  | rounds + 1, tok :: rest =>
    match tok.kind with
    | .closing => do
      let rest ← closingTag start.tag tok.position (tok :: rest) rest
      return ([], rest)
    | .text => do
      let (nodes, rest) ← childNodes rounds last start rest
      return (.text tok.lexeme :: nodes, rest)
    | .code => do
      let code := Text.unbraced tok.lexeme
      let (nodes, rest) ← childNodes rounds last start rest
      return (if code.isEmpty then nodes else .code code :: nodes, rest)
    | .opening => do
      let (inner, rest) ← startTag last (tok :: rest)
      let (grandchildren, rest) ←
        if inner.isEmpty then pure ([], rest) else childNodes rounds last inner rest
      let (nodes, rest) ← childNodes rounds last start rest
      return ((inner.element grandchildren).toNode :: nodes, rest)
    | _ => childNodes rounds last start rest

/-! ## 3. Elements -/

/-- Reads one element at the head of the tokens.  `last` is the position reported when no token
is left. -/
def read (last : Option Int) (ts : List Token) : Except Failure (Element × List Token) := do
  let (start, rest) ← startTag last ts
  let (nodes, rest) ←
    if start.isEmpty then pure ([], rest) else childNodes (rest.length + 1) last start rest
  return (start.element nodes, rest)

/-- The position reported when tokens run out: that of the last one. -/
def endPosition (ts : List Token) : Option Int := ts.getLast?.map Token.position

/-- Reads one element and requires that no token follows it. -/
def readWhole (last : Option Int) (ts : List Token) : Except Failure (Element × List Token) := do
  let (root, rest) ← read last ts
  match rest with
  | [] => return (root, rest)
  | extra :: _ =>
    throw (.at (.contentAfterRoot root.tag extra.lexeme) (some extra.position) rest)

/-- The element that all of the tokens make up. -/
def ofTokens (ts : List Token) : Except MarkupError Element :=
  match readWhole (endPosition ts) ts with
  | .ok (root, _) => .ok root
  | .error f => .error f.error

end Element

end InlineMarkup
