import InlineMarkup.Glob
import InlineMarkup.Path.Output
import InlineMarkup.Project.Failure

/-!
# The sources of a project

The sources are the files under the source roots whose names end in the source suffix, except
those under the generated directory and those that a glob excludes.  Globs are matched against
the path as seen from the project's root or, outside of it, from the source root.  Each source is
listed once, in the order of paths.

The suffix is searched for as a glob, too, so a file has to match it both ways; a suffix that
brings a second star next to the first has no meaning as a glob and is refused.
-/

namespace InlineMarkup.Project

/-- What to look for, and where. -/
structure Search where
  sourceRoots : List Text
  suffix : Text := Path.sourceSuffix
  generatedDir : Text := Path.generatedDir
  exclude : List Text := []
deriving DecidableEq, Repr

/-- The search that settings ask for. -/
def Search.ofSettings (s : Settings) : Search :=
  ⟨s.sourceRoots, s.sourceSuffix, s.generatedDir, s.exclude⟩

namespace Search

/-- The glob for names with a suffix. -/
def pattern (suffix : Text) : Text := '*' :: suffix

/-- Two stars in a row stand for directories. -/
def doubleStar : Text := ['*', '*']

/-- Two stars in a row are a whole part of the path or do not occur in it. -/
def isSearchable (suffix : Text) : Bool :=
  (Path.partsOf (pattern suffix)).all fun part =>
    part == doubleStar || !Text.includes part doubleStar

/-- A file with this name is a candidate. -/
def isCandidate (suffix name : Text) : Bool :=
  pattern suffix != doubleStar && Glob.accepts (Glob.ofText (pattern suffix)) name

/-- The path that globs are matched against, for a file under a source root. -/
def relative (root : Option Path) (base file : Path) : Text :=
  match root.bind file.relativeTo?, file.relativeTo? base with
  | some p, _ => p.text
  | none, some p => p.text
  | none, none => file.text

/-- The sources under one source root. -/
def under (d : Disk) (root : Option Path) (generated base : Path) (s : Search) : List Path :=
  ((d.filesUnder base.parts).map (Path.mk .root)).filter fun file =>
    isCandidate s.suffix file.name && file.isSource s.suffix (some generated) &&
      !Glob.excludes s.exclude (relative root base file)

/-- The sources under each of some source roots.  The system may have a reason why one of them
cannot be scanned. -/
def underEach (d : Disk) (cwd root generated : Path) (scanning : Path → Option Disk.Fault)
    (s : Search) : List Text → Except Failure (List Path)
  | [] => .ok []
  | sourceRoot :: rest =>
    match resolved cwd (root.child sourceRoot) with
    | .error f => .error f
    | .ok base =>
      match d.look cwd base with
      | .error f => .error (.disk f)
      | .ok none => underEach d cwd root generated scanning s rest
      | .ok (some (.file _)) => .error (.sourceRoot base)
      | .ok (some .directory) =>
        if isSearchable s.suffix then
          match scanning base with
          | some f => .error (.scan base f)
          | none =>
            match underEach d cwd root generated scanning s rest with
            | .error f => .error f
            | .ok files => .ok (under d (Path.resolve? cwd root) generated base s ++ files)
        else .error .suffixPattern

end Search

/-- The sources of the project with this root, in order. -/
def sources (d : Disk) (cwd root : Path) (s : Search)
    (scanning : Path → Option Disk.Fault := fun _ => none) : Except Failure (List Path) :=
  match resolved cwd (root.child s.generatedDir) with
  | .error f => .error f
  | .ok generated =>
    match s.underEach d cwd root generated scanning s.sourceRoots with
    | .error f => .error f
    | .ok files => .ok (Path.sorted files)

end InlineMarkup.Project
