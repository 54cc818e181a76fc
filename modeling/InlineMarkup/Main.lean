import InlineMarkup.Cli.Session

/-!
# The program

The program copies what a command may look at into a `Disk`, runs the command there, prints what
it has to say, and carries over to the real disk whatever the command has changed.  It has no
watcher, so `watch` says what is missing.
-/

namespace InlineMarkup.Cli

/-! ## 1. From the real disk -/

/-- The path of a location. -/
def pathOf (l : Location) : String := String.ofList (Path.text ⟨.root, l⟩)

/-- Which files' bytes are read; of other files it is enough to know that they are there. -/
abbrev Wanted := Location → Bool

/-- The path given for an option, if it can be looked up. -/
def pathOrNone (cwd : Path) (given : Option (Given Text)) : Option Path :=
  (givenPath cwd given).toOption.join

/-- The configuration files: those with the usual name, and the one that is asked for. -/
def wantConfig (cwd : Path) (a : Arguments) : Wanted := fun l =>
  l.getLast? == some Project.configName || (pathOrNone cwd a.config).map Path.parts == some l

/-- Beside others, the files whose names end in a suffix. -/
def Wanted.orSuffix (wanted : Wanted) (suffix : Text) : Wanted := fun l =>
  wanted l || Text.endsWith (l.getLastD []) suffix

/-- The entry at a location. -/
def readEntry (wanted : Wanted) (l : Location) (isDirectory : Bool) : IO Disk.Entry := do
  if isDirectory then return .directory
  if wanted l then return .file (← IO.FS.readBinFile (pathOf l)).toList
  return .file []

/-- The names in a directory, and which of them are directories. -/
def readNames (l : Location) : IO (List (Text × Bool)) := do
  try
    let directory ← IO.FS.realPath (pathOf l)
    (← directory.readDir).toList.mapM fun e => do
      return (e.fileName.toList, ← e.path.isDir)
  catch _ => return []

/-- Adds everything under a directory, down to a depth. -/
def learnTree (wanted : Wanted) : Nat → Disk → Location → IO Disk
  | 0, d, _ => return d
  | depth + 1, d, l => do
    (← readNames l).foldlM
      (fun d (name, isDirectory) => do
        let here := l ++ [name]
        let d := d.insert here (← readEntry wanted here isDirectory)
        if isDirectory then learnTree wanted depth d here else return d)
      d

/-- Adds the directories that lead to a location, and their entries. -/
def learnWay (wanted : Wanted) (d : Disk) (l : Location) : IO Disk :=
  (List.range (l.length + 1)).foldlM (fun d n => learnTree wanted 1 d (l.take n)) d

/-- The greatest depth of directories that is looked into. -/
def greatestDepth : Nat := 64

/-- What a command may look at: the ways to the directories it is called for, and everything in
the source roots and the generated directory of the project that is found there. -/
def learnProject (cwd : Path) (a : Arguments) : IO Disk := do
  let wanted := wantConfig cwd a
  let starts := cwd :: (pathOrNone cwd a.root).toList ++
    ((pathOrNone cwd a.config).map Path.parent).toList
  let d ← starts.foldlM (fun d p => learnWay wanted d p.parts) {}
  match loadProject d cwd a with
  | .error _ => return d
  | .ok (root, settings) =>
    let wanted := (wanted.orSuffix settings.sourceSuffix).orSuffix settings.outputSuffix
    let places := (settings.sourceRoots ++ [settings.generatedDir]).map fun t =>
      (Path.resolve cwd (root.child t)).parts
    let d ← places.foldlM (learnWay wanted) d
    places.foldlM (learnTree wanted greatestDepth) d

/-! ## 2. To the real disk -/

/-- Carries a new entry over. -/
def writeEntry (l : Location) : Disk.Entry → IO Unit
  | .directory => IO.FS.createDirAll (pathOf l)
  | .file bytes => do
    let temporary := pathOf (l.dropLast ++ [Disk.temporaryStem ++ Disk.eightDigits 0])
    IO.FS.writeBinFile temporary ⟨bytes.toArray⟩
    IO.FS.rename temporary (pathOf l)

/-- Carries what has changed over. -/
def writeChanges (before after : Disk) : IO Unit :=
  after.entries.forM fun (l, e) => do
    if before.entry? l != some e then writeEntry l e

/-! ## 3. The command line -/

/-- The time since some moment in the past. -/
def clock : IO Duration := return .ofNanoseconds (← IO.monoNanosNow)

/-- Prints what a session has to say, and gives the exit code. -/
def finish (ending : Ending) (s : Session) : IO UInt32 := do
  (← IO.getStdout).putStr (String.ofList s.out)
  (← IO.getStderr).putStr (String.ofList s.err)
  match ending with
  | .ok code => return code.toUInt32
  | .error f =>
    (← IO.getStderr).putStrLn (String.ofList (f.label ++ ": " ++ f.message))
    return 1

/-- Runs a command line. -/
def runMain (arguments : List Text) : IO UInt32 := do
  let cwd := Path.ofText (← IO.currentDir).toString.toList
  let env : Surroundings := { cwd, watcher := none }
  match Arguments.ofList arguments with
  | .error _ =>
    let (ending, s) ← run clock env arguments { disk := {} }
    finish ending s
  | .ok a =>
    let disk ← learnProject cwd a
    let (ending, s) ← runArguments clock env a { disk }
    writeChanges disk s.disk
    finish ending s

end InlineMarkup.Cli

/-- Runs the program. -/
def main (arguments : List String) : IO UInt32 :=
  InlineMarkup.Cli.runMain (arguments.map String.toList)
