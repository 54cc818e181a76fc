import InlineMarkup.Cli.Arguments
import InlineMarkup.Project.Root
import InlineMarkup.Report
import InlineMarkup.Report.Problem
import InlineMarkup.Settings.Override
import InlineMarkup.Watch

/-!
# Running commands

A session holds the disk and what has been printed.  A command ends with an exit code: 0 when all
is well, 2 when there are no settings or sources to work with, and 3 when something could not be
built.  A failure of another kind is not handled; it ends the session as it is.
-/

namespace InlineMarkup.Cli

open Project (Failure BuildReport)

/-! ## 1. Sessions -/

/-- A batch of changes to be watched: what happens to the disk, and which paths are reported. -/
structure Batch where
  change : Disk → Disk
  changed : List Path

/-- The changes that will be seen, and whether the user interrupts the watch after them. -/
structure Watcher where
  batches : List Batch := []
  interrupted : Bool := false

/-- Where the program runs: the current directory, if there is one a watcher, and the system. -/
structure Surroundings where
  cwd : Path
  watcher : Option Watcher := some {}
  system : Project.System := {}

/-- What a watcher was asked to do. -/
structure Watching where
  directories : List Path
  debounceMs : Given Int
deriving DecidableEq, Repr

/-- The disk, and what has been printed. -/
structure Session where
  disk : Disk
  out : Text := []
  err : Text := []
  watching : List Watching := []

namespace Session

/-- Prints text. -/
def print (s : Session) (t : Text) : Session := { s with out := s.out ++ t }

/-- Prints a line. -/
def printLine (s : Session) (t : Text) : Session := s.print (t ++ "\n")

/-- Prints a line to the error stream. -/
def tell (s : Session) (t : Text) : Session := { s with err := s.err ++ t ++ "\n" }

/-- Prints lines to the error stream. -/
def tellAll (s : Session) (lines : List Text) : Session := lines.foldl tell s

/-- Shows a log, if it is asked for. -/
def showLog (s : Session) (a : Arguments) (log : List LogRecord) : Session :=
  if a.verbose then s.tellAll (log.map LogRecord.line) else s

end Session

/-- How a command ends: with an exit code, or with a failure that is not handled. -/
abbrev Ending := Except Failure Nat

/-- The exit code when all is well. -/
def exitOk : Nat := 0

/-- The exit code when there are no settings or sources. -/
def exitNoProject : Nat := 2

/-- The exit code when something could not be built. -/
def exitErrors : Nat := 3

/-- The exit code for the report of a build. -/
def exitCode (r : BuildReport) : Nat := if r.ok then exitOk else exitErrors

/-! ## 2. The project -/

/-- The path given for an option; an empty one counts as not given. -/
def givenPath (cwd : Path) : Option (Given Text) → Except Failure (Option Path)
  | some (.value []) | some .nothing | none => .ok none
  | some (.value t) => (Project.resolved cwd (.ofText t)).map some

/-- The name given for an option. -/
def givenName : Option (Given Text) → Option Settings.Given
  | none => none
  | some (.value t) => some (.text t)
  | some .nothing => some .other

/-- What is given for this run. -/
def Arguments.overrides (a : Arguments) : Settings.Overrides where
  factory := givenName a.factory
  createElement := givenName a.createElement
  createText := givenName a.createText
  wrapText := if a.wrapText then some true else none

/-- The root of the project, given what is known of it and of its configuration file. -/
def projectRoot (d : Disk) (cwd : Path) (root config : Option Path) : Except Failure Path :=
  match root, config with
  | some root, _ => .ok root
  | none, some config => .ok config.parent
  | none, none => Project.findRoot d cwd cwd

/-- The root of the project and its settings for this run. -/
def loadProject (d : Disk) (cwd : Path) (a : Arguments) : Except Failure (Path × Settings) := do
  let root ← givenPath cwd a.root
  let config ← givenPath cwd a.config
  let root ← projectRoot d cwd root config
  let settings ← Project.loadSettings d cwd (some root) config
  match Settings.override settings.names a.overrides with
  | .error f => throw (.settings f)
  | .ok names => return (root, { settings with names })

/-! ## 3. Building -/

/-- Tells a failure of a command. -/
def tellFailure (a : Arguments) (command : Command) (f : Failure) (s : Session) : Session :=
  if a.json then s.printLine (Report.errorJson command.name f.message).print
  else s.tell (Problem.ofFailure f).told

/-- What is told before a build. -/
def header (root : Path) (settings : Settings) : List Text :=
  ["Project: " ++ root.text, "Factory: " ++ settings.names.factory,
    "CreateElement: " ++ settings.names.createElement]

/-- A command ends with a failure: it is told, or not handled. -/
def endWith (a : Arguments) (command : Command) (handled : Failure → Bool) (f : Failure)
    (s : Session) : Ending × Session :=
  if handled f then (.ok exitNoProject, tellFailure a command f s) else (.error f, s)

/-- Shows the report of a build. -/
def showReport (a : Arguments) (cwd root : Path) (r : BuildReport) (s : Session) : Session :=
  if a.json then s.printLine (Report.json cwd root r).print else s.print (Report.text cwd root r)

section Timed

variable {m : Type → Type} [Monad m] (now : m Duration)

/-- Builds the project once. -/
def runBuild (env : Surroundings) (a : Arguments) (s : Session) : m (Ending × Session) := do
  match loadProject s.disk env.cwd a with
  | .error f => return endWith a .build Failure.isReported f s
  | .ok (root, settings) =>
    let s := if a.json then s else s.tellAll (header root settings)
    let built ← Project.buildAll now env.system s.disk env.cwd root settings
    let s := { s with disk := built.disk }.showLog a built.log
    match built.result with
    | .error f => return endWith a .build Failure.isReported f s
    | .ok report =>
      return (.ok (exitCode report), showReport a env.cwd root report s)

/-! ## 4. Watching -/

/-- A failure before the watch that is told. -/
def isToldBeforeWatch : Failure → Bool
  | .settings f => f.isOfConfiguration
  | .noWatcher => true
  | _ => false

/-- The paths that are directories. -/
def directories (d : Disk) (cwd : Path) : List Path → Except Failure (List Path)
  | [] => .ok []
  | p :: rest => do
    match d.isDirectory cwd p with
    | .error f => throw (.disk f)
    | .ok there =>
      let others ← directories d cwd rest
      return if there then p :: others else others

/-- The source roots that are directories. -/
def watchedRoots (d : Disk) (cwd root : Path) (sourceRoots : List Text) :
    Except Failure (List Path) := do
  directories d cwd (← sourceRoots.mapM fun t => Project.resolved cwd (root.child t))

/-- Tells a message of the watch. -/
def tellNotice (a : Arguments) (t : Text) (s : Session) : Session :=
  if a.json then s else s.tell t

/-- Shows an event of the watch. -/
def showEvent (a : Arguments) (cwd root : Path) (s : Session) : Watch.Event Failure → Session
  | .batch | .cycle _ => s
  | .notice t => tellNotice a t s
  | .noted log => s.showLog a log
  | .result c =>
    if a.json then s.printLine c.json.print
    else (c.report.files.map (Report.file cwd root)).foldl Session.printLine s
  | .failed f =>
    if a.json then s.printLine (Report.errorJson Command.watch.name f.message).print
    else s.tell ("[watch] error: " ++ f.label ++ ": " ++ f.message)

/-- What the loop of the watch is told about the disk. -/
def watchWorld (env : Surroundings) (root : Path) (settings : Settings) :
    Watch.World m Disk Failure Batch where
  arrive b d := (b.changed, b.change d)
  exists? d p := (d.isFile env.cwd p).mapError .disk
  runCycle changed d := Watch.buildCycle now env.system env.cwd root settings changed d

/-- The line that the log holds when waiting starts. -/
def waitingLine : Text := "DEBUG asyncio: Using selector: EpollSelector"

/-- The paths that a watch over some roots of the project takes for sources. -/
def watchScope (cwd root : Path) (settings : Settings) (roots : List Path) : Watch.Scope where
  roots := roots
  suffix := settings.sourceSuffix
  generated := Path.resolve? cwd (root.child settings.generatedDir)

/-- Watches the sources of a project that has been built. -/
def watchProject (env : Surroundings) (a : Arguments) (watcher : Watcher) (root : Path)
    (settings : Settings) (s : Session) : m (Ending × Session) := do
  match watchedRoots s.disk env.cwd root settings.sourceRoots with
  | .error f => return (.error f, s)
  | .ok roots =>
    let s := tellNotice a ("[watch] watching " ++ Text.joinWith ", " (roots.map Path.text)) s
    let s := tellNotice a "[watch] press Ctrl+C to stop" s
    let watching : Watching := ⟨roots, a.debounceMs.getD (.value settings.debounceMs)⟩
    let s := { s with watching := s.watching ++ [watching] }
    let s := if a.verbose then s.tell waitingLine else s
    let scope := watchScope env.cwd root settings roots
    let (events, outcome, disk) ←
      Watch.loop (watchWorld now env root settings) scope watcher.batches s.disk
    let s := events.foldl (showEvent a env.cwd root) { s with disk }
    match outcome with
    | .error f => return (.error f, s)
    | .ok () =>
      return (.ok exitOk, if watcher.interrupted then tellNotice a "[watch] stopped" s else s)

/-- Builds the project, and goes on building as files change. -/
def runWatch (env : Surroundings) (a : Arguments) (s : Session) : m (Ending × Session) := do
  match env.watcher with
  | none => return endWith a .watch isToldBeforeWatch .noWatcher s
  | some watcher =>
    match loadProject s.disk env.cwd a with
    | .error f => return endWith a .watch isToldBeforeWatch f s
    | .ok (root, settings) =>
      match ← runBuild now env a s with
      | (.ok code, s) =>
        if code = exitNoProject then return (.ok code, s)
        else watchProject now env a watcher root settings s
      | (.error f, s) => return (.error f, s)

/-! ## 5. Command lines -/

/-- Runs what arguments ask for. -/
def runArguments (env : Surroundings) (a : Arguments) (s : Session) : m (Ending × Session) :=
  match a.command with
  | .build => runBuild now env a s
  | .watch => runWatch now env a s

/-- Runs a command line. -/
def run (env : Surroundings) (arguments : List Text) (s : Session) : m (Ending × Session) :=
  match Arguments.ofList arguments with
  | .ok a => runArguments now env a s
  | .error r => return (.ok r.code, { s.print r.out with err := s.err ++ r.err })

end Timed

end InlineMarkup.Cli
