import InlineMarkup.Text.Quoted

/-!
# Paths

A path is an anchor and a list of parts.  Reading drops empty parts and parts that are a single
dot, and keeps `..`; two leading slashes are an anchor of their own, and three or more are read
as one.

Paths are compared by their lists of parts, with the anchor as the first of them, and not by
their texts: `a/b` comes before `a-b`.

`resolve` makes a path absolute and does away with `..` by looking at the text alone, which is
right where no directory is a link.  A path that holds the NUL character cannot be looked up on
a disk at all, so `resolve?` has no result for it.
-/

namespace InlineMarkup

/-- What a path starts from. -/
inductive Path.Anchor where
  /-- The current directory. -/
  | relative
  /-- `/` -/
  | root
  /-- `//` -/
  | doubleRoot
deriving DecidableEq, Repr, Inhabited

/-- A path. -/
structure Path where
  anchor : Path.Anchor := .relative
  parts : List Text := []
deriving DecidableEq, Repr, Inhabited

namespace Path

/-! ## 1. Reading and writing -/

/-- The text of an anchor. -/
def Anchor.text : Anchor → Text
  | .relative => ""
  | .root => "/"
  | .doubleRoot => "//"

/-- The part that stands for the directory itself. -/
def here : Text := ['.']

/-- The part that stands for the directory above. -/
def above : Text := ['.', '.']

/-- The anchor of a text. -/
def anchorOf (t : Text) : Anchor :=
  match (t.takeWhile (· == '/')).length with
  | 0 => .relative
  | 2 => .doubleRoot
  | _ => .root

/-- The parts of a text. -/
def partsOf (t : Text) : List Text :=
  (Text.splitAt '/' t).filter fun part => !(part.isEmpty || part == here)

/-- Reads a path. -/
def ofText (t : Text) : Path := ⟨anchorOf t, partsOf t⟩

/-- Writes a path; the empty one is a dot. -/
def text (p : Path) : Text :=
  match p.anchor.text ++ Text.joinWith "/" p.parts with
  | [] => here
  | t => t

instance : Coe Path Text := ⟨text⟩

/-- The path does not start from the current directory. -/
def isAbsolute (p : Path) : Bool := p.anchor != .relative

/-! ## 2. Order -/

/-- The list by which paths are compared. -/
def key (p : Path) : List Text :=
  if p.isAbsolute then p.anchor.text :: p.parts else p.parts

/-- `a` is not after `b`, for lists of texts compared item by item. -/
def keyLe : List Text → List Text → Bool
  | [], _ => true
  | _ :: _, [] => false
  | a :: as, b :: bs => Text.precedes a b || (a == b && keyLe as bs)

/-- The path `a` is not after the path `b`. -/
def le (a b : Path) : Bool := keyLe a.key b.key

/-- Paths in order, each once. -/
def sorted (paths : List Path) : List Path := (paths.mergeSort le).eraseDups

/-! ## 3. Parts of a path -/

/-- The last part, or the empty text. -/
def name (p : Path) : Text := p.parts.getLastD []

/-- The path without its last part. -/
def parent (p : Path) : Path := { p with parts := p.parts.dropLast }

/-- The path with its parts read once more; a name that was given to it may hold slashes. -/
def reread (p : Path) : Path := { p with parts := p.parts.flatMap partsOf }

/-- The path with further parts; a path with an anchor takes the place of the first. -/
def join (p q : Path) : Path :=
  if q.isAbsolute then q.reread else { p with parts := p.parts ++ q.reread.parts }

/-- The path extended by the path that a text reads as. -/
def child (p : Path) (t : Text) : Path := p.join (ofText t)

/-- The path is `q` or lies under it. -/
def isUnder (p q : Path) : Bool := p.anchor == q.anchor && q.parts.isPrefixOf p.parts

/-- The path as seen from `q`, if it is `q` or lies under it. -/
def relativeTo? (p q : Path) : Option Path :=
  if p.isUnder q then some { parts := p.parts.drop q.parts.length } else none

/-- Where the suffix of a name starts: at its last dot, unless that is its first or its last
character. -/
def suffixStart? (name : Text) : Option Nat :=
  let tail := name.reverse.takeWhile (· != '.')
  let start := name.length - tail.length - 1
  if '.' ∈ name ∧ 0 < start ∧ tail ≠ [] then some start else none

/-- The suffix of the name, with its dot. -/
def suffix (p : Path) : Text :=
  match suffixStart? p.name with
  | some i => p.name.drop i
  | none => []

/-- The name without its suffix. -/
def stem (p : Path) : Text :=
  match suffixStart? p.name with
  | some i => p.name.take i
  | none => p.name

/-! ## 4. Another name -/

/-- Why a path cannot be given a name. -/
inductive NameFault where
  /-- The path has no name that could be changed. -/
  | emptyName (p : Path)
  /-- The name would not be a single part. -/
  | invalidName (name : Text)
deriving DecidableEq, Repr

/-- The wording of a fault. -/
def NameFault.message : NameFault → Text
  | emptyName p => "PosixPath(" ++ Text.quoted p.text ++ ") has an empty name"
  | invalidName name => "Invalid name " ++ Text.quoted name

/-- A text that can be the name of a path: it reads as one part and does not end in a slash. -/
def isName (t : Text) : Bool :=
  !(ofText t).isAbsolute && (partsOf t).length == 1 && t.getLast? != some '/'

/-- The path with another name. -/
def withName (p : Path) (name : Text) : Except NameFault Path :=
  if p.name.isEmpty then .error (.emptyName p)
  else if isName name then .ok { p with parts := p.parts.dropLast ++ [name] }
  else .error (.invalidName name)

/-! ## 5. Resolving -/

/-- Follows one part from a directory, given as the reversed list of its parts. -/
def follow (reversed : List Text) (part : Text) : List Text :=
  if part.isEmpty || part == here then reversed
  else if part == above then reversed.tail
  else part :: reversed

/-- The parts of a path as seen from the root, without `..`; `cwd` is the current directory. -/
def resolvedParts (cwd p : Path) : List Text :=
  let start := if p.isAbsolute then [] else cwd.parts.reverse
  let steps := p.parts.flatMap (Text.splitAt '/')
  (steps.foldl follow start).reverse

/-- The path as seen from the root, without `..`. -/
def resolve (cwd p : Path) : Path := ⟨.root, resolvedParts cwd p⟩

/-- The character that ends a path for a disk, so that no path on a disk holds it. -/
def nul : Char := '\x00'

/-- The path holds a NUL. -/
def holdsNul (p : Path) : Bool := p.parts.any fun part => part.contains nul

/-- The path as seen from the root, without `..`, if it can be looked up. -/
def resolve? (cwd p : Path) : Option Path := if p.holdsNul then none else some (resolve cwd p)

/-- The path as seen from the root, without `..`, under the anchor that it has. -/
def absolute (cwd p : Path) : Path :=
  ⟨if p.isAbsolute then p.anchor else .root, resolvedParts cwd p⟩

end Path

end InlineMarkup
