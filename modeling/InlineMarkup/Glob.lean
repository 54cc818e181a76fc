import InlineMarkup.Glob.CharClass

/-!
# Globs

In a glob `*` stands for any text, `?` for any character and `[...]` for a character of a class;
all else stands for itself, and so does a `[` that is never closed.  A glob matches a text as a
whole, and slashes and line ends are characters like others.

`accepts` fills a table: for every end of the glob, from the shortest on, it says of every end
of the text whether they match.  The work is the product of the two lengths.
-/

namespace InlineMarkup

namespace Glob

/-- One item of a glob. -/
inductive Item where
  /-- Any text. -/
  | star
  /-- One character of a class. -/
  | one (set : CharClass)
deriving DecidableEq, Repr

/-! ## 1. Reading -/

/-- The length of the text of a class, given what follows its opening bracket.  A bracket that
comes first, or right after a leading `!`, does not close the class. -/
def classLength? (t : Text) : Option Nat :=
  let lead := if t.head? = some '!' then 1 else 0
  let lead := if (t.drop lead).head? = some ']' then lead + 1 else lead
  ((t.drop lead).findIdx? (· == ']')).map (lead + ·)

/-- Reads a glob. -/
def ofText (t : Text) : List Item :=
  match t with
  | [] => []
  | c :: rest =>
    if c = '*' then .star :: ofText rest
    else if c = '?' then .one .any :: ofText rest
    else if c = '[' then
      match classLength? rest with
      | some n => .one (.ofText (rest.take n)) :: ofText (rest.drop (n + 1))
      | none => .one (.single c) :: ofText rest
    else .one (.single c) :: ofText rest
termination_by t.length
decreasing_by
  · exact Nat.lt_succ_self _
  · exact Nat.lt_succ_self _
  · exact Text.length_drop_lt_length_cons ..
  · exact Nat.lt_succ_self _
  · exact Nat.lt_succ_self _

/-! ## 2. Matching -/

/-- From a row, the row that holds wherever the first holds there or further on. -/
def fromHere : List Bool → List Bool
  | [] => []
  | b :: rest =>
    let later := fromHere rest
    (b || later.headD false) :: later

/-- For every end of `t`, the whole text first and the empty one last, whether the glob matches
it. -/
def row (t : Text) : List Item → List Bool
  | [] => t.map (fun _ => false) ++ [true]
  | .star :: rest => fromHere (row t rest)
  | .one set :: rest =>
    (t.zip ((row t rest).drop 1)).map (fun p => set.contains p.1 && p.2) ++ [false]

/-- The glob matches the whole text. -/
def accepts (glob : List Item) (t : Text) : Bool := (row t glob).headD false

/-! ## 3. Exclusion -/

/-- A glob and, when it starts with `**/`, what is left without that, and so on: directories in
front may be missing. -/
def variants : Text → List Text
  | '*' :: '*' :: '/' :: rest => ('*' :: '*' :: '/' :: rest) :: variants rest
  | t => [t]

/-- A path is excluded when a variant of one of the globs matches it. -/
def excludes (globs : List Text) (path : Text) : Bool :=
  globs.any fun g => (variants g).any fun v => accepts (ofText v) path

end Glob

end InlineMarkup
