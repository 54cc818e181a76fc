import InlineMarkup.Project.Failure
import InlineMarkup.Text.Trim

/-!
# Problems and hints

A problem as it is told to people: the name of its class and its text.  A problem without a text
is told by its class.  For some problems there is a hint on what to do.
-/

namespace InlineMarkup

/-- A problem: the name of its class, its text, and how it is told when the text is empty. -/
structure Problem where
  label : Text
  text : Text
  bare : Text
deriving DecidableEq, Repr

namespace Problem

/-- The classes of problems with the form of a text; their text is never empty. -/
def syntaxLabels : List Text := ["SyntaxError", "IndentationError", "TabError"]

/-- The problem of a class with one argument, or with none.  The argument is the text, except
that a key is told in quotes. -/
def ofArgument (label : Text) (argument : Option Text) : Problem :=
  match argument with
  | none => ⟨label, if syntaxLabels.contains label then "None" else [], label ++ "()"⟩
  | some t =>
    ⟨label, if label == "KeyError".toList then Text.quoted t else t,
      label ++ "(" ++ Text.quoted t ++ ")"⟩

/-- The problem of a failed run. -/
def ofFailure (f : Project.Failure) : Problem := ofArgument f.label (some f.message)

/-- The classes of problems with missing modules. -/
def missingModule : List Text := ["ImportError", "ModuleNotFoundError"]

/-- A hint on what to do. -/
def hint? (p : Problem) : Option Text :=
  if p.label == "TagweaveConfigError".toList then
    if Text.includes p.text "Multiple .csproj" then
      some "run from the project directory, or add a tagweave.toml next to one project"
    else if Text.includes p.text "Could not find" then
      some "run inside a C# project or create a tagweave.toml at the project root"
    else none
  else if p.label == "TagweaveDiscoveryError".toList then
    some "check that paths.source_roots in tagweave.toml lists directories"
  else if missingModule.contains p.label && Text.includes p.text "watchfiles" then
    some "install the watch extra: pip install tagweave[watch]"
  else none

/-- The problem and its hint, on lines of their own. -/
def told (p : Problem) : Text :=
  "error: " ++ Text.trim (if p.text.isEmpty then p.bare else p.text) ++
    match p.hint? with
    | some hint => "\nhint: " ++ hint
    | none => []

end Problem

end InlineMarkup
