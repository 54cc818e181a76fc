import InlineMarkup.Text.Basic

/-!
# Tables of code points

A character property is given by a table of closed ranges, or of runs that take every `step`-th
code point where the two cases of an alphabet alternate.
-/

namespace InlineMarkup.Text

/-- `n` lies in one of the closed ranges. -/
def inRanges (ranges : List (Nat × Nat)) (n : Nat) : Bool :=
  ranges.any fun r => r.1 ≤ n && n ≤ r.2

/-- `n` is one of `first`, `first + step`, …, `last`. -/
def inRun (first last step n : Nat) : Bool :=
  first ≤ n && n ≤ last && (n - first) % step == 0

/-- `n` lies in one of the runs. -/
def inRuns (runs : List (Nat × Nat × Nat)) (n : Nat) : Bool :=
  runs.any fun r => inRun r.1 r.2.1 r.2.2 n

end InlineMarkup.Text
