import InlineMarkup.Element.Parser

/-!
# Reading elements step by step

A cursor stands at a place in a list of tokens.  It can be moved, asked for tokens near it, and made
to take the token at which it stands.  A place before the first token counts from the end of the
list: reading goes on from there to the end, and then over the list from its start.

An attribute list, an element or a whole document is read by such steps alone.  The reading fails
when the tokens do not make up what is to be read; a step fails, too, where it asks for a token that
is not there.  In both cases the cursor stays where it stood.
-/

namespace InlineMarkup

/-- A place in a list of tokens. -/
structure Cursor where
  tokens : List Token
  position : Int := 0
deriving DecidableEq, Repr

namespace Cursor

/-! ## 1. Steps -/

/-- Why a step of a cursor fails. -/
inductive Fault where
  /-- There is no token at the place asked for. -/
  | outOfRange (place : Int)
  /-- The tokens do not make up what was to be read. -/
  | markup (error : MarkupError)
deriving DecidableEq, Repr

/-- The tokens from the place on, or nothing when the place lies too far before the first. -/
def remaining? (c : Cursor) : Option (List Token) :=
  if 0 ≤ c.position then some (c.tokens.drop c.position.toNat)
  else if c.position.natAbs ≤ c.tokens.length then
    some (c.tokens.drop (c.tokens.length - c.position.natAbs) ++ c.tokens)
  else none

/-- The cursor moved by `offset`. -/
def move (c : Cursor) (offset : Int) : Cursor := { c with position := c.position + offset }

/-- The token `offset` places on; none when that is past the end. -/
def peek (c : Cursor) (offset : Int) : Except Fault (Option Token) :=
  match (c.move offset).remaining? with
  | some rest => .ok rest.head?
  | none => .error (.outOfRange (c.position + offset))

/-- The token `offset` places on is of this kind. -/
def check (c : Cursor) (kind : Token.Kind) (offset : Int) : Except Fault Bool :=
  match c.peek offset with
  | .ok (some token) => .ok (token.kind == kind)
  | .ok none => .ok false
  | .error e => .error e

/-- Takes the token at the cursor. -/
def advance (c : Cursor) : Except Fault Token × Cursor :=
  match c.remaining? with
  | some (token :: _) => (.ok token, c.move 1)
  | _ => (.error (.outOfRange c.position), c)

/-- The position reported when tokens run out. -/
def endPosition (c : Cursor) : Option Int := Element.endPosition c.tokens

/-! ## 2. Work -/

/-- Work with a cursor: what it comes to, and the cursor after it. -/
def Work (α : Type) : Type := Cursor → Except Fault α × Cursor

instance : Monad Work where
  pure a := fun c => (.ok a, c)
  bind work next := fun c =>
    match work c with
    | (.ok a, c) => next a c
    | (.error e, c) => (.error e, c)

namespace Work

/-- Asks for the token `offset` places on. -/
def peek (offset : Int) : Work (Option Token) := fun c => (c.peek offset, c)

/-- Asks whether the token `offset` places on is of this kind. -/
def check (kind : Token.Kind) (offset : Int) : Work Bool := fun c => (c.check kind offset, c)

/-- Takes a token. -/
def advance : Work Token := Cursor.advance

/-- Passes over so many places. -/
def skip (places : Int) : Work Unit := fun c => (.ok (), c.move places)

/-- Fails with a fault of the markup. -/
def fail {α : Type} (fault : MarkupFault) (position : Option Int) : Work α :=
  fun c => (.error (.markup ⟨fault, position⟩), c)

/-- Asks for the position reported when tokens run out. -/
def endPosition : Work (Option Int) := fun c => (.ok c.endPosition, c)

/-- Asks how many tokens are left. -/
def left : Work Nat := fun c => (.ok (c.remaining?.getD []).length, c)

/-- Takes the token at the cursor if it is of this kind. -/
def passOver (kind : Token.Kind) : Work Unit := do
  if ← check kind 0 then
    let _ ← advance
    pure ()
  else pure ()

/-! ## 3. Reading -/

/-- The attributes up to the end of a tag, added to the props read so far.  Every round takes a
token, so as many rounds as there are tokens, and one for the end, are enough. -/
def attributesIn : Nat → Props → Props → Work (Props × Props)
  | 0, strings, codes => pure (strings, codes)
  | rounds + 1, strings, codes => do
    match ← peek 0 with
    | none => pure (strings, codes)
    | some tok =>
      if tok.kind = .tagEnd ∨ tok.kind = .emptyTagEnd then pure (strings, codes)
      else do
        let prop ← advance
        if tok.kind ≠ .propName then attributesIn rounds strings codes
        else do
          passOver .equals
          match ← peek 0 with
          | none => attributesIn rounds strings codes
          | some value =>
            match value.kind with
            | .string => do
              let _ ← advance
              attributesIn rounds (Props.set prop.lexeme value.lexeme strings) codes
            | .code => do
              let _ ← advance
              attributesIn rounds strings
                (Props.set prop.lexeme (Text.unbraced value.lexeme) codes)
            | _ => attributesIn rounds strings codes

/-- The attributes up to the end of a tag. -/
def attributes : Work (Props × Props) := do attributesIn ((← left) + 1) [] []

/-- Reads a start tag. -/
def startTag : Work Element.StartTag := do
  match ← peek 0 with
  | none => fail .expectedElement (← endPosition)
  | some start =>
    if start.kind ≠ .opening then fail .expectedElement (some start.position)
    else do
      let _ ← advance
      match ← peek 0 with
      | none => fail .expectedTagName (some start.position)
      | some name =>
        if name.kind ≠ .tagName then fail .expectedTagName (some start.position)
        else do
          let _ ← advance
          let (strings, codes) ← attributes
          if ← check .emptyTagEnd 0 then
            let _ ← advance
            pure ⟨start.position, name.lexeme, strings, codes, true⟩
          else if !(← check .tagEnd 0) then
            fail (.unterminatedStartTag name.lexeme) (some start.position)
          else do
            let _ ← advance
            pure ⟨start.position, name.lexeme, strings, codes, false⟩

/-- Passes over the closing tag that starts with `tok`, of an element with this name. -/
def closingTag (tag : Text) (tok : Token) : Work Unit := do
  match ← peek 1 with
  | none => fail (.expectedClosingName tag) (some tok.position)
  | some name =>
    if name.kind ≠ .tagName then fail (.expectedClosingName tag) (some tok.position)
    else if name.lexeme ≠ tag then
      fail (.mismatchedClosingTag name.lexeme tag) (some tok.position)
    else if !(← check .tagEnd 2) then fail (.unterminatedClosingTag tag) (some tok.position)
    else skip 3

mutual

/-- Reads an element.  An element takes a token before its children are read, and a child takes one
before the next is, so two more rounds than there are tokens are enough. -/
def elementIn : Nat → Work Element
  | 0 => do fail .expectedElement (← endPosition)
  | rounds + 1 => do
    let start ← startTag
    if start.isEmpty then pure (start.element [])
    else do
      let children ← childrenIn rounds start
      pure (start.element children)

/-- Reads the children of the element with this start tag, and its closing tag. -/
def childrenIn : Nat → Element.StartTag → Work (List Node)
  | 0, start => fail (.unclosedElement start.tag) (some start.position)
  | rounds + 1, start => do
    match ← peek 0 with
    | none => fail (.unclosedElement start.tag) (some start.position)
    | some tok =>
      match tok.kind with
      | .closing => do
        closingTag start.tag tok
        pure []
      | .text => do
        let _ ← advance
        let nodes ← childrenIn rounds start
        pure (.text tok.lexeme :: nodes)
      | .code => do
        let _ ← advance
        let code := Text.unbraced tok.lexeme
        let nodes ← childrenIn rounds start
        pure (if code.isEmpty then nodes else .code code :: nodes)
      | .opening => do
        let child ← elementIn rounds
        let nodes ← childrenIn rounds start
        pure (child.toNode :: nodes)
      | _ => do
        let _ ← advance
        childrenIn rounds start

end

/-- Reads an element. -/
def element : Work Element := do elementIn ((← left) + 2)

/-- Reads an element and requires that no token follows it. -/
def document : Work Element := do
  let root ← element
  match ← peek 0 with
  | none => pure root
  | some extra => fail (.contentAfterRoot root.tag extra.lexeme) (some extra.position)

end Work

/-- Reads an attribute list as that of an element with this name. -/
def attributes (c : Cursor) (tag : Text) : Except Fault Element × Cursor :=
  (do
    let (strings, codes) ← Work.attributes
    pure { tag, strings, codes } : Work Element) c

/-- Reads an element. -/
def element (c : Cursor) : Except Fault Element × Cursor := Work.element c

/-- Reads an element and requires that no token follows it. -/
def document (c : Cursor) : Except Fault Element × Cursor := Work.document c

end Cursor

end InlineMarkup
