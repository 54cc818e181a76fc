/-!
# Texts

A text is a list of characters.  All offsets, lengths and cuts in this library count
characters, so the list is the right view of it: an offset is a number of elements, and every
reader is a recursion on the list.

String literals stand for texts through a coercion, so the words of a message can be written
as usual.
-/

namespace InlineMarkup

/-- A text: its characters in order. -/
abbrev Text := List Char

instance : Coe String Text := ⟨String.toList⟩

namespace Text

/-! ## 1. Joining and splitting -/

/-- The texts in order, with `separator` between neighbours. -/
def joinWith (separator : Text) : List Text → Text
  | [] => []
  | [t] => t
  | t :: rest => t ++ separator ++ joinWith separator rest

/-- The maximal pieces of a text that hold no `separator`; a text without one is its own single
piece. -/
def splitAt (separator : Char) : Text → List Text
  | [] => [[]]
  | c :: rest =>
    if c = separator then [] :: splitAt separator rest
    else
      match splitAt separator rest with
      | [] => [[c]]
      | piece :: pieces => (c :: piece) :: pieces

/-- `t.startsWith s`: the text begins with `s`. -/
def startsWith (t s : Text) : Bool := s.isPrefixOf t

/-- `t.endsWith s`: the text ends with `s`. -/
def endsWith (t s : Text) : Bool := s.isSuffixOf t

/-- `t.includes s`: `s` occurs somewhere in the text. -/
def includes (t s : Text) : Bool :=
  match t with
  | [] => s.isEmpty
  | c :: rest => s.isPrefixOf (c :: rest) || includes rest s

/-- What follows the first item of a list is shorter than the list, wherever it is cut. -/
theorem length_drop_lt_length_cons {α : Type} (n : Nat) (a : α) (l : List α) :
    (l.drop n).length < (a :: l).length := by
  rw [List.length_drop, List.length_cons]
  omega

/-! ## 2. Trimming -/

/-- Removes the characters in `p` from both ends. -/
def trimBy (p : Char → Bool) (t : Text) : Text :=
  (((t.dropWhile p).reverse).dropWhile p).reverse

/-! ## 3. Cuts at any offset

A cut may be asked for at an offset outside the text.  A negative offset counts from the end,
and an offset past either end stands for that end. -/

/-- The number of characters before offset `i`. -/
def cutPoint (t : Text) (i : Int) : Nat :=
  if i < 0 then (t.length + i).toNat else min i.toNat t.length

/-- The characters before offset `i`. -/
def before (t : Text) (i : Int) : Text := t.take (t.cutPoint i)

/-- The characters from offset `i` on. -/
def after (t : Text) (i : Int) : Text := t.drop (t.cutPoint i)

/-- The characters between two offsets. -/
def slice (t : Text) (i j : Int) : Text := (t.before j).drop (t.cutPoint i)

theorem cutPoint_append (u v : Text) : cutPoint (u ++ v) u.length = u.length := by
  rw [cutPoint, if_neg (by omega), List.length_append]
  omega

theorem before_append (u v : Text) : before (u ++ v) u.length = u := by
  rw [before, cutPoint_append, List.take_left]

theorem after_append (u v : Text) : after (u ++ v) u.length = v := by
  rw [after, cutPoint_append, List.drop_left]

/-- The characters that stand after `a` and before `b`. -/
theorem slice_append (a l b : Text) :
    slice (a ++ (l ++ b)) a.length (a.length + l.length) = l := by
  have hbefore : before (a ++ (l ++ b)) (a.length + l.length) = a ++ l := by
    rw [← List.append_assoc, ← Int.natCast_add, ← List.length_append]
    exact before_append (a ++ l) b
  rw [slice, hbefore, cutPoint_append, List.drop_left]

/-- The characters that a reader at offset `i` meets, up to the end of the text.  A reader that
starts below zero is that far from the end; it meets the last characters, then comes to offset
zero and meets the whole text.  There is nothing to read farther back than the text is long. -/
def onward? (t : Text) (i : Int) : Option Text :=
  if 0 ≤ i then some (t.drop i.toNat)
  else if 0 ≤ t.length + i then some (t.after i ++ t)
  else none

/-! ## 4. Numbers as texts -/

/-- The decimal digits of a natural number. -/
def ofNat (n : Nat) : Text := Nat.toDigits 10 n

/-- The decimal digits of an integer, with a minus sign before a negative one. -/
def ofInt (i : Int) : Text :=
  if i < 0 then '-' :: ofNat i.natAbs else ofNat i.natAbs

/-- `count` and the noun, which takes an `s` unless the count is one. -/
def counted (count : Nat) (noun : Text) : Text :=
  ofNat count ++ " " ++ noun ++ (if count = 1 then "" else "s")

/-! ## 5. Order

Texts are compared by their first differing character, and a text precedes its extensions. -/

/-- `a.precedes b`: `a` is strictly before `b`. -/
def precedes : Text → Text → Bool
  | _, [] => false
  | [], _ :: _ => true
  | a :: as, b :: bs => a.toNat < b.toNat || (a == b && precedes as bs)

end Text

end InlineMarkup
