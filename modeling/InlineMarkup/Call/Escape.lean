import InlineMarkup.Text.Basic

/-!
# Text in double quotes

Running text is written as a literal in double quotes.  Backslashes are doubled first, so that
the backslashes which the later substitutions bring in stay single.
-/

namespace InlineMarkup.Call

/-- The text with every `c` replaced by `replacement`. -/
def substitute (c : Char) (replacement t : Text) : Text :=
  t.flatMap fun d => if d = c then replacement else [d]

/-- What is substituted in a literal, in order. -/
def substitutions : List (Char × Text) :=
  [('\\', "\\\\"), ('"', "\\\""), ('\n', "\\n"), ('\r', "\\r"), ('\t', "\\t")]

/-- The inside of a literal. -/
def escaped (t : Text) : Text :=
  substitutions.foldl (fun t s => substitute s.1 s.2 t) t

/-- A text as a literal. -/
def literal (t : Text) : Text := '"' :: escaped t ++ ['"']

end InlineMarkup.Call
