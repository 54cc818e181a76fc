import InlineMarkup.Text.Basic

/-!
# Elements

What the markup of a region says: an element with a name, props and children.  A prop's value is
either a quoted literal, kept with its quotes, or host code, kept without its braces; the two
kinds are held apart.  Children are running text, host code and further elements.
-/

namespace InlineMarkup

/-- Props in the order of their first appearance, each name once. -/
abbrev Props := List (Text × Text)

namespace Props

/-- Gives a prop a value.  A name that is present keeps its place. -/
def set (name value : Text) : Props → Props
  | [] => [(name, value)]
  | (n, v) :: rest => if n = name then (n, value) :: rest else (n, v) :: set name value rest

/-- The props that the pairs set, from left to right. -/
def ofPairs (pairs : List (Text × Text)) : Props :=
  pairs.foldl (fun props p => set p.1 p.2 props) []

end Props

/-- A child of an element. -/
inductive Node where
  /-- Running text. -/
  | text (content : Text)
  /-- Host code. -/
  | code (source : Text)
  /-- An element. -/
  | element (tag : Text) (strings codes : Props) (children : List Node)
  /-- Something else, of a kind with this name; the readers of this library never yield one. -/
  | unsupported (kind : Text)
deriving Repr, Inhabited

/-- An element: its name, its props with a literal value, its props with a code value, and its
children. -/
structure Element where
  tag : Text
  strings : Props := []
  codes : Props := []
  children : List Node := []
deriving Repr, Inhabited

/-- An element as a child. -/
def Element.toNode (e : Element) : Node := .element e.tag e.strings e.codes e.children

end InlineMarkup
