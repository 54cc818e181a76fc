import InlineMarkup.Project.Failure
import InlineMarkup.Toml.Parser

/-!
# The root of a project and its settings

A project's root is a directory with a configuration file, or else with exactly one project
file; it is looked for from a directory upward.  The configuration file may be missing unless it
is asked for by its path.
-/

namespace InlineMarkup.Project

/-- The name of the configuration file. -/
def configName : Text := "tagweave.toml"

/-- The suffix of project files. -/
def projectSuffix : Text := ".csproj"

/-! ## 1. The root -/

/-- The directory is the root of a project. -/
def isRoot (d : Disk) (cwd directory : Path) : Except Failure Bool :=
  match d.isFile cwd (directory.child configName) with
  | .error f => .error (.disk f)
  | .ok true => .ok true
  | .ok false =>
    match ((d.namesIn directory.parts).filter fun n => Text.endsWith n projectSuffix).length with
    | 0 => .ok false
    | 1 => .ok true
    | _ => .error (.settings (.severalProjects directory))

/-- The path and the paths above it, up to its anchor. -/
def upward (p : Path) : List Path :=
  (List.range (p.parts.length + 1)).map fun i =>
    { p with parts := p.parts.take (p.parts.length - i) }

/-- The first of some directories that is a root. -/
def firstRoot (d : Disk) (cwd : Path) : List Path → Except Failure Path
  | [] => .error (.settings .noProject)
  | directory :: rest =>
    match isRoot d cwd directory with
    | .error f => .error f
    | .ok true => .ok directory
    | .ok false => firstRoot d cwd rest

/-- Where the search from a path starts: a file stands for the directory it is in. -/
def searchStart (d : Disk) (cwd start : Path) : Path :=
  match d.isFile cwd start with
  | .ok false => start
  | _ => start.parent

/-- The root of the project that a path belongs to. -/
def findRoot (d : Disk) (cwd start : Path) : Except Failure Path :=
  match resolved cwd (searchStart d cwd start) with
  | .error f => .error f
  | .ok directory => firstRoot d cwd (upward directory)

/-! ## 2. Settings -/

/-- The table in a configuration file; none when there is no file. -/
def readConfig (d : Disk) (cwd file : Path) : Except Failure (Option Toml.Table) :=
  match d.readBytes cwd file with
  | .error f =>
    match f.reason with
    | .missing => .ok none
    | .embeddedNul => .error (.disk f)
    | _ => .error (.settings (.unreadable file))
  | .ok bytes =>
    match Utf8.decode bytes with
    | .error _ => .error (.settings (.notUtf8 file))
    | .ok t =>
      match Toml.parse t with
      | .error .malformed => .error (.settings (.notToml file))
      | .error (.digits f) => .error (.settings (.digits f))
      | .ok table => .ok (some table)

/-- The settings in a table. -/
def settingsFrom (table : Toml.Table) : Except Failure Settings :=
  (Settings.ofTable table).mapError .settings

/-- The settings in a file that has to exist. -/
def settingsIn (d : Disk) (cwd file : Path) : Except Failure Settings := do
  match ← readConfig d cwd file with
  | some table => settingsFrom table
  | none => throw (.settings (.missing file))

/-- The settings of the project with this root. -/
def settingsOf (d : Disk) (cwd root : Path) : Except Failure Settings := do
  match ← readConfig d cwd (root.child configName) with
  | some table => settingsFrom table
  | none => settingsFrom []

/-- The settings in a file, if one is given, or else of a project, or else of the project that
the current directory belongs to. -/
def loadSettings (d : Disk) (cwd : Path) (root file : Option Path) : Except Failure Settings :=
  match file, root with
  | some file, _ => settingsIn d cwd file
  | none, some root => settingsOf d cwd root
  | none, none =>
    match findRoot d cwd cwd with
    | .error f => .error f
    | .ok root => settingsOf d cwd root

end InlineMarkup.Project
