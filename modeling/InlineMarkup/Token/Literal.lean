import InlineMarkup.MarkupError
import InlineMarkup.Region
import InlineMarkup.Text.Numeric

/-!
# Names, quoted literals and code blocks

The readers for the three kinds of token that are longer than two characters.  Each says how
many characters at the head of a text belong to the token, so a cut at that length gives the
token and what follows it.

A backslash in a quoted stretch takes the next character with it, whatever that is.  Braces in
a quoted stretch of a code block do not count.

The last section starts the readers at an offset of a text.  They then answer with the offset just
past the token, or with an error at the offset where they were started.
-/

namespace InlineMarkup.Literal

/-! ## 1. Names -/

/-- A name starts with a letter or an underscore. -/
def isNameStart (c : Char) : Bool := Text.isLetter c || c == '_'

/-- A name goes on with letters, numbers, underscores and hyphens. -/
def isNamePart (c : Char) : Bool := Text.isLetterOrNumber c || c == '_' || c == '-'

/-- The number of name characters at the head of a text. -/
def nameLength (t : Text) : Nat := (t.takeWhile isNamePart).length

/-! ## 2. Quoted literals -/

/-- The number of characters up to and with the `quote` that ends a literal, given the text after
the opening quote.  `i` characters have been passed before `t`. -/
def stringEnd (quote : Char) (i : Nat) : Text → Option Nat
  | [] => none
  | c :: rest =>
    if c = '\\' then
      match rest with
      | [] => none
      | _ :: rest => stringEnd quote (i + 2) rest
    else if c = quote then some (i + 1)
    else stringEnd quote (i + 1) rest

/-- The length of the literal at the head of a text; its first character is taken for the
quote. -/
def stringLength? : Text → Option Nat
  | [] => none
  | quote :: rest => stringEnd quote 1 rest

/-! ## 3. Code blocks -/

/-- The number of characters up to and with the brace that ends a block.  `depth` is the number
of braces opened less the number closed so far, `quote` the quote the walk is inside of, and `i`
the number of characters passed before `t`. -/
def codeEnd (depth : Int) (quote : Option Char) (i : Nat) : Text → Option Nat
  | [] => none
  | c :: rest =>
    match quote with
    | some q =>
      if c = '\\' then
        match rest with
        | [] => none
        | _ :: rest => codeEnd depth (some q) (i + 2) rest
      else codeEnd depth (if c = q then none else some q) (i + 1) rest
    | none =>
      if isQuote c then codeEnd depth (some c) (i + 1) rest
      else if c = '{' then codeEnd (depth + 1) none (i + 1) rest
      else if c = '}' then
        if depth = 1 then some (i + 1) else codeEnd (depth - 1) none (i + 1) rest
      else codeEnd depth none (i + 1) rest

/-- The length of the block at the head of a text. -/
def codeLength? (t : Text) : Option Nat := codeEnd 0 none 0 t

/-! ## 4. Running text -/

/-- Running text goes on up to the next tag or block. -/
def isTextPart (c : Char) : Bool := c != '<' && c != '{'

/-- The number of characters at the head of a text that are running text. -/
def textLength (t : Text) : Nat := (t.takeWhile isTextPart).length

/-! ## 5. Readers at an offset

An offset below zero counts from the end of the text, and nothing can be read farther back than
the text is long. -/

/-- The offset just past the name that starts at offset `start`. -/
def nameAt (t : Text) (start : Int) : Option Int :=
  (t.onward? start).map fun rest => start + nameLength rest

/-- The offset just past what a reader takes at offset `start`.  Where it takes nothing, the fault
shows the text from `start` to its end. -/
def readAt (length? : Text → Option Nat) (fault : Text → MarkupFault) (t : Text) (start : Int) :
    Option (Except MarkupError Int) :=
  (t.onward? start).map fun rest =>
    match length? rest with
    | some n => .ok (start + n)
    | none => .error ⟨fault (t.after start), some start⟩

/-- The offset just past the quoted literal at offset `start`.  The quote is what stands there, so
the offset has to be one of the text. -/
def stringAt (t : Text) (start : Int) : Option (Except MarkupError Int) :=
  if t.length ≤ start then none else readAt stringLength? .unterminatedString t start

/-- The offset just past the code block at offset `start`. -/
def codeAt (t : Text) (start : Int) : Option (Except MarkupError Int) :=
  readAt codeLength? .unterminatedCode t start

end InlineMarkup.Literal
