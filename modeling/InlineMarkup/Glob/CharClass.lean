import InlineMarkup.Text.Basic

/-!
# Character classes in globs

The text between the brackets of a class is cut at the hyphens that make ranges.  The first
hyphen that can make one stands after the first character, not counting a leading `!`, and every
next one at least two characters after the cut; a hyphen at the end makes none.  The last
character of a piece and the first of the next are then the ends of a range.  A range whose ends
are out of order is empty, and is dropped together with its ends before anything else is read,
so a `!` negates a class when it comes first after that.
-/

namespace InlineMarkup.Glob

/-- A class of characters, as ranges of the characters in it or out of it. -/
structure CharClass where
  negated : Bool := false
  ranges : List (Char × Char) := []
deriving DecidableEq, Repr

namespace CharClass

/-- The character is in the class. -/
def contains (s : CharClass) (c : Char) : Bool :=
  s.negated != s.ranges.any fun r => r.1.toNat ≤ c.toNat && c.toNat ≤ r.2.toNat

/-- Every character. -/
def any : CharClass := ⟨true, []⟩

/-- One character. -/
def single (c : Char) : CharClass := ⟨false, [(c, c)]⟩

/-- The offset of the first hyphen at or after offset `least`. -/
def hyphenFrom (least : Nat) (t : Text) : Option Nat :=
  ((t.drop least).findIdx? (· == '-')).map (least + ·)

/-- Cuts a text at the hyphens that make ranges. -/
def pieces (least : Nat) (t : Text) : List Text :=
  match t with
  | [] => [[]]
  | c :: rest =>
    match hyphenFrom least (c :: rest) with
    | none => [c :: rest]
    | some i => (c :: rest).take i :: pieces 2 (rest.drop i)
termination_by t.length
decreasing_by exact Text.length_drop_lt_length_cons ..

/-- Gives a hyphen at the very end back to the piece before it. -/
def keepLastHyphen : List Text → List Text
  | [] => []
  | [piece] => [piece]
  | [piece, []] => [piece ++ ['-']]
  | piece :: rest => piece :: keepLastHyphen rest

/-- Puts a piece before others, without the range between them if that is empty. -/
def joinPiece (piece : Text) : List Text → List Text
  | [] => [piece]
  | next :: rest =>
    match piece.getLast?, next.head? with
    | some low, some high =>
      if high.toNat < low.toNat then (piece.dropLast ++ next.drop 1) :: rest
      else piece :: next :: rest
    | _, _ => piece :: next :: rest

/-- The pieces without empty ranges. -/
def dropEmptyRanges (ps : List Text) : List Text := ps.foldr joinPiece []

/-- The characters and ranges that pieces stand for. -/
def rangesOf : List Text → List (Char × Char)
  | [] => []
  | [piece] => piece.map fun c => (c, c)
  | piece :: next :: rest =>
    (piece.map fun c => (c, c)) ++
      (match piece.getLast?, next.head? with
        | some low, some high => [(low, high)]
        | _, _ => [('-', '-')]) ++
      rangesOf (next :: rest)

/-- The class that the text between brackets stands for. -/
def ofText (t : Text) : CharClass :=
  let least := if t.head? = some '!' then 2 else 1
  match dropEmptyRanges (keepLastHyphen (pieces least t)) with
  | ('!' :: piece) :: rest => ⟨true, rangesOf (piece :: rest)⟩
  | ps => ⟨false, rangesOf ps⟩

end CharClass

end InlineMarkup.Glob
