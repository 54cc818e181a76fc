import InlineMarkup.Token.Lexer

/-!
# Reading tokens from before the start

A place before the start of a text counts from its end.  A reader that starts there meets the
last characters, and then the whole text from its start.

A mark of two characters does not reach over the end, while names, literals, blocks and running
text do.  What such a token shows is the piece of the text between the places where the token
starts and ends; when the token reaches the end, the second place is the start of the text or
lies after it, and mostly nothing is between them.
-/

namespace InlineMarkup.Lexer

/-- Where a reading ended: the tokens read, the place and the mode at its end, and the error that
stopped it, if one did. -/
structure Stop where
  tokens : List Token
  position : Int
  mode : Mode
  failure : Option MarkupError
deriving DecidableEq, Repr

/-- The end of a reading that started in the text. -/
def Stop.ofLexed (r : Lexed) : Stop := ⟨r.tokens, r.position, r.mode, r.failure⟩

/-- The token that a step yields between two places. -/
def tokenBetween (t : Text) (start stop : Int) : Token.Kind × Text → Option Token
  | (kind, mark) =>
    match kind with
    | .string | .code | .tagName | .propName => some ⟨kind, t.slice start stop, start⟩
    | .text =>
      match Text.trim (t.slice start stop) with
      | [] => none
      | lexeme => some ⟨.text, lexeme, start⟩
    | _ => some ⟨kind, mark, start⟩

/-- The fault of a literal that is never closed, which shows the text up to its end. -/
def showingTail (tail : Text) : MarkupFault → MarkupFault
  | .unterminatedString _ => .unterminatedString tail
  | .unterminatedCode _ => .unterminatedCode tail
  | fault => fault

/-- Reads `t` from `k` characters before its end. -/
def runBefore (t : Text) (mode : Mode) : Nat → Stop
  | 0 => .ofLexed (run 0 mode t)
  | k + 1 =>
    let start : Int := -(k + 1)
    match t.after start with
    | [] => ⟨[], start, mode, none⟩
    | c :: rest =>
      match stepWith rest.head? mode c (rest ++ t) with
      | .error fault => ⟨[], start, mode, some ⟨showingTail (c :: rest) fault, some start⟩⟩
      | .ok s =>
        let later :=
          if s.extra ≤ k then runBefore t s.mode (k - s.extra)
          else .ofLexed (run (s.extra - k) s.mode (t.drop (s.extra - k)))
        let token := s.token.bind (tokenBetween t start (start + 1 + s.extra))
        { later with tokens := token.toList ++ later.tokens }
termination_by k => k
decreasing_by exact Nat.lt_succ_of_le (Nat.sub_le ..)

/-- Reads `t` from a place in it or before it; there is nothing to read farther back than the
text is long. -/
def runAt (t : Text) (position : Int) (mode : Mode) : Option Stop :=
  if 0 ≤ position then
    some (.ofLexed (run position.toNat mode (t.drop position.toNat)))
  else if position.natAbs ≤ t.length then some (runBefore t mode position.natAbs)
  else none

end InlineMarkup.Lexer
