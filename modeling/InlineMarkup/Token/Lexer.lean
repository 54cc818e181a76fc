import InlineMarkup.MarkupError
import InlineMarkup.Token
import InlineMarkup.Token.Literal

/-!
# Reading tokens

The markup of a region is read from left to right.  What a character means depends on a `Mode`
of two flags: after `<` or `</` the next name is a tag name, and between a tag name and the end
of its tag names are prop names and stray characters are dropped.  Elsewhere everything up to
the next tag or block is running text, and is kept without the blanks around it.

One `step` reads the characters of at most one token.  `run` repeats it to the end of the text,
or to a literal that is never closed; what has been read by then is kept either way.
-/

namespace InlineMarkup

/-- What the reader expects at a character. -/
structure Lexer.Mode where
  /-- The next name is a tag name. -/
  expectTagName : Bool := false
  /-- The reader stands in the attribute list of a tag. -/
  inAttributes : Bool := false
deriving DecidableEq, Repr, Inhabited

/-- Where a run of the reader ended: the tokens read, the offset and the mode at its end, the
stray characters dropped on the way, and the error that stopped it, if one did. -/
structure Lexed where
  tokens : List Token
  position : Nat
  mode : Lexer.Mode
  strays : List (Char × Nat)
  failure : Option MarkupError
deriving DecidableEq, Repr

namespace Lexer

/-- The mode after the end of a tag. -/
def Mode.outside : Mode := {}

/-- One step of the reader at a character: how many characters it takes after that one, the mode
it leaves, the token it yields, and whether the character is dropped as a stray. -/
structure Step where
  extra : Nat
  mode : Mode
  token : Option (Token.Kind × Text) := none
  stray : Bool := false

/-- The step at character `c` before `rest`, where `next` is the character that may make a mark
of two characters out of `c`. -/
def stepWith (next : Option Char) (mode : Mode) (c : Char) (rest : Text) :
    Except MarkupFault Step :=
  if Text.isBlank c then .ok { extra := 0, mode }
  else if c = '<' then
    let mode := { mode with expectTagName := true }
    if next = some '/' then .ok { extra := 1, mode, token := some (.closing, "</") }
    else .ok { extra := 0, mode, token := some (.opening, "<") }
  else if c = '>' then .ok { extra := 0, mode := .outside, token := some (.tagEnd, ">") }
  else if c = '/' ∧ next = some '>' then
    .ok { extra := 1, mode := .outside, token := some (.emptyTagEnd, "/>") }
  else if c = '=' then .ok { extra := 0, mode, token := some (.equals, "=") }
  else if isQuote c then
    match Literal.stringEnd c 0 rest with
    | some extra => .ok { extra, mode, token := some (.string, c :: rest.take extra) }
    | none => .error (.unterminatedString (c :: rest))
  else if c = '{' then
    match Literal.codeEnd 1 none 0 rest with
    | some extra => .ok { extra, mode, token := some (.code, c :: rest.take extra) }
    | none => .error (.unterminatedCode (c :: rest))
  else if Literal.isNameStart c && (mode.expectTagName || mode.inAttributes) then
    let extra := Literal.nameLength rest
    let name := c :: rest.take extra
    if mode.expectTagName then
      .ok { extra, mode := { expectTagName := false, inAttributes := true },
            token := some (.tagName, name) }
    else .ok { extra, mode, token := some (.propName, name) }
  else if mode.inAttributes then .ok { extra := 0, mode, stray := true }
  else
    let extra := Literal.textLength rest
    .ok { extra, mode, token := some (.text, Text.trim (c :: rest.take extra)) }

/-- The step at character `c` before `rest`. -/
def step (mode : Mode) (c : Char) (rest : Text) : Except MarkupFault Step :=
  stepWith rest.head? mode c rest

/-- Reads `t`, whose head stands at offset `i`, from a mode. -/
def run (i : Nat) (mode : Mode) (t : Text) : Lexed :=
  match t with
  | [] => { tokens := [], position := i, mode, strays := [], failure := none }
  | c :: rest =>
    match step mode c rest with
    | .error fault =>
      { tokens := [], position := i, mode, strays := [], failure := some ⟨fault, some i⟩ }
    | .ok s =>
      let r := run (i + 1 + s.extra) s.mode (rest.drop s.extra)
      { r with
        tokens :=
          match s.token with
          | some (kind, lexeme) => ⟨kind, lexeme, i⟩ :: r.tokens
          | none => r.tokens
        strays := if s.stray then (c, i) :: r.strays else r.strays }
termination_by t.length
decreasing_by exact Text.length_drop_lt_length_cons ..

end Lexer

/-- Reads the markup of a region. -/
def Lexed.ofText (t : Text) : Lexed := Lexer.run 0 {} t

/-- The tokens of a region's markup, or the error that stops the reading. -/
def Token.ofText (t : Text) : Except MarkupError (List Token) :=
  let r := Lexed.ofText t
  match r.failure with
  | none => .ok r.tokens
  | some e => .error e

end InlineMarkup
