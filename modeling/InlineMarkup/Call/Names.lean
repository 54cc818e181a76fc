import InlineMarkup.Text.LetterCase

/-!
# Names in calls

An element becomes a call of a factory's method.  `Names` says which factory and which methods;
the rest of this module derives the names of props and of the type of the props argument from
the markup's own names.
-/

namespace InlineMarkup

/-- The names used in calls, and whether text is wrapped in a call of its own. -/
structure Names where
  factory : Text := "Document"
  createElement : Text := "CreateElement"
  createText : Text := "CreateText"
  wrapText : Bool := false
deriving DecidableEq, Repr, Inhabited

namespace Call

/-- A word with its first character in upper case. -/
def capitalized : Text → Text
  | [] => []
  | c :: rest => Text.upperCase c ++ rest

/-- A hyphenated name as one word with a capital for each part. -/
def pascalCase (name : Text) : Text := ((Text.splitAt '-' name).map capitalized).flatten

/-- An element whose name starts with a capital is a component. -/
def isComponent : Text → Bool
  | [] => false
  | c :: _ => Text.isUpperCase c

/-- The type of the props argument of an element. -/
def propsType (tag : Text) : Text :=
  if isComponent tag then tag ++ "Props" else "Html" ++ pascalCase tag ++ "Props"

end Call

end InlineMarkup
