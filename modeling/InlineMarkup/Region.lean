import InlineMarkup.Text.Trim

/-!
# Markup regions

Markup is written in host text between parentheses: a region opens at a `(` whose first
non-blank follower is `<`, and ends at the `)` that balances it.  Nothing else of the host text
is read.

`closing?` looks for the balancing parenthesis and does not count parentheses in quotes.  A
quoted stretch runs from a quote to the next equal quote that has no backslash right before it,
or to the end of the text.

`scan` walks over a text and lists what it finds: regions, and openings that nothing balances.
A region is stepped over as a whole, so the regions of a text are disjoint and outermost; after
an unbalanced opening the walk goes on with the next character, so it hides nothing.
-/

namespace InlineMarkup

/-- A single or a double quote. -/
def isQuote (c : Char) : Bool := c == '"' || c == '\''

/-- A region of a text: the whole parenthesized expression, the markup in it without the blanks
around it, and the offsets of the two parentheses. -/
structure Region where
  expression : Text
  content : Text
  start : Int
  stop : Int
deriving DecidableEq, Repr, Inhabited

namespace Region

/-! ## 1. The balancing parenthesis -/

/-- The offset of the parenthesis that closes the one before `t`.  `i` is the offset of the head
of `t`, `quote` the quote the walk is inside of, `prev` the character before the head, and
`depth` the number of parentheses opened on the way and not yet closed. -/
def closeFrom (i : Nat) (quote : Option Char) (prev : Char) (depth : Nat) : Text → Option Nat
  | [] => none
  | c :: rest =>
    match quote with
    | some q =>
      closeFrom (i + 1) (if c = q ∧ prev ≠ '\\' then none else some q) c depth rest
    | none =>
      if isQuote c then closeFrom (i + 1) (some c) c depth rest
      else if c = '(' then closeFrom (i + 1) none c (depth + 1) rest
      else if c = ')' then
        match depth with
        | 0 => some i
        | depth + 1 => closeFrom (i + 1) none c depth rest
      else closeFrom (i + 1) none c depth rest

/-- How many characters of `t` stand before the parenthesis that closes the one before `t`. -/
def closeIn (t : Text) : Option Nat := closeFrom 0 none ' ' 0 t

/-- The offset of the `)` that balances the opening parenthesis at offset `opening`. -/
def closing? (t : Text) (opening : Nat) : Option Nat :=
  closeFrom (opening + 1) none ' ' 0 (t.drop (opening + 1))

/-! ## 2. The walk over a text -/

/-- The text after an opening parenthesis goes on, past blanks, with `<`. -/
def opensMarkup (t : Text) : Bool :=
  match t.dropWhile Text.isBlank with
  | c :: _ => c == '<'
  | [] => false

/-- The region that opens at offset `start` before `rest` and closes `size` characters on. -/
def build (start : Nat) (rest : Text) (size : Nat) : Region where
  expression := '(' :: rest.take (size + 1)
  content := Text.trim (rest.take size)
  start := start
  stop := start + size + 1

end Region

/-- One thing that the walk over a text meets. -/
inductive Finding where
  /-- A region. -/
  | region (r : Region)
  /-- The offset of an opening parenthesis before `<` that nothing balances. -/
  | unbalanced (offset : Nat)
deriving DecidableEq, Repr

namespace Finding

/-- The region of a finding. -/
def region? : Finding → Option Region
  | .region r => some r
  | .unbalanced _ => none

/-- The findings in `t`, whose head stands at offset `i`. -/
def scanFrom (i : Nat) : Text → List Finding
  | [] => []
  | c :: rest =>
    if c = '(' ∧ Region.opensMarkup rest then
      match Region.closeIn rest with
      | some size =>
        .region (Region.build i rest size) :: scanFrom (i + size + 2) (rest.drop (size + 1))
      | none => .unbalanced i :: scanFrom (i + 1) rest
    else scanFrom (i + 1) rest
termination_by t => t.length
decreasing_by
  · exact Text.length_drop_lt_length_cons ..
  · exact Nat.lt_succ_self _
  · exact Nat.lt_succ_self _

/-- The findings in a text, in order. -/
def scan (t : Text) : List Finding := scanFrom 0 t

end Finding

/-- The regions of a text, in order. -/
def Region.extract (t : Text) : List Region := (Finding.scan t).filterMap Finding.region?

end InlineMarkup
