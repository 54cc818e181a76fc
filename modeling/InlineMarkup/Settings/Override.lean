import InlineMarkup.Settings

/-!
# Overriding names

The names used in calls can be given for a single run.  What is given replaces the setting, and
a given name has to pass the same test as a name in a configuration file.
-/

namespace InlineMarkup.Settings

/-- A name that is given from outside. -/
inductive Given where
  | text (t : Text)
  /-- Something that is not a text. -/
  | other
deriving DecidableEq, Repr

/-- What is given for a run. -/
structure Overrides where
  factory : Option Given := none
  createElement : Option Given := none
  createText : Option Given := none
  wrapText : Option Bool := none
deriving DecidableEq, Repr

/-- A name that is given under the name of an option, or else its setting. -/
def overrideName (option : Text) (given : Option Given) (setting : Text) : Except Fault Text :=
  match given with
  | none => .ok setting
  | some (.text t) => checkIdentifier option t
  | some .other => .error (.unexpected option .text)

/-- The names with what is given in their places. -/
def override (names : Names) (o : Overrides) : Except Fault Names := do
  let factory ← overrideName "--factory" o.factory names.factory
  let createElement ← overrideName "--create-element" o.createElement names.createElement
  let createText ← overrideName "--create-text" o.createText names.createText
  return { factory, createElement, createText, wrapText := o.wrapText.getD names.wrapText }

/-- Something is given. -/
def Overrides.isSome (o : Overrides) : Bool :=
  o.factory.isSome || o.createElement.isSome || o.createText.isSome || o.wrapText.isSome

end InlineMarkup.Settings
