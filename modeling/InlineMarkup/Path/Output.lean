import InlineMarkup.Path

/-!
# Where outputs go

The output of a source file lies under the generated directory of the project, at the place that
the source has under the project's root, and its suffix is changed.  A source outside the root
goes directly into the generated directory, and so does one that cannot be looked up.
-/

namespace InlineMarkup.Path

/-- The suffix of sources, unless another is set. -/
def sourceSuffix : Text := ".xcs"

/-- The suffix of outputs, unless another is set. -/
def outputSuffix : Text := ".g.cs"

/-- The generated directory, unless another is set. -/
def generatedDir : Text := "Generated"

/-- The path with its suffix changed. -/
def outputRelative (p : Path) (suffix : Text) : Except NameFault Path :=
  p.withName (p.stem ++ suffix)

/-- The path as seen from `root`, if both can be looked up and it is `root` or lies under it. -/
def seenFrom? (cwd p root : Path) : Option Path :=
  match resolve? cwd p, resolve? cwd root with
  | some p, some root => p.relativeTo? root
  | _, _ => none

/-- The output of a source. -/
def output (cwd source root : Path) (generated suffix : Text) : Except NameFault Path :=
  let relative := (seenFrom? cwd source root).getD (ofText source.name)
  match outputRelative relative suffix with
  | .ok p => .ok ((root.child generated).join p)
  | .error fault => .error fault

/-- A path as shown in reports: as seen from the root, if it is under the root. -/
def display (cwd p root : Path) : Text :=
  match seenFrom? cwd p root with
  | some relative => relative.text
  | none => p.text

/-- A source file by its name: it has the suffix, and does not lie under the generated
directory. -/
def isSource (p : Path) (suffix : Text) (generated : Option Path) : Bool :=
  Text.endsWith p.name suffix &&
    match generated with
    | none => true
    | some g => !p.isUnder g

end InlineMarkup.Path
