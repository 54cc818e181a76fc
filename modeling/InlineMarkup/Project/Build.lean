import InlineMarkup.Log
import InlineMarkup.Project.Sources
import InlineMarkup.Project.System
import InlineMarkup.Report.Duration
import InlineMarkup.Retry

/-!
# Building

Building a source reads it, expands its markup and writes the output.  A file that cannot be
read or written is a failed result and does not stop a build.  What does stop it is an output
without a possible name, a path that is none for a disk, and a pause between attempts that cannot
be made.

The clock that tells how long a build took is read through `now`, in whatever monad it lives in; all
else is a function of the disk and the system.
-/

namespace InlineMarkup.Project

/-! ## 1. Results -/

/-- The result of building one source. -/
structure FileResult where
  source : Path
  output : Path
  expansions : List Expansion := []
  duration : Duration := .zero
  error : Option Text := none
deriving DecidableEq, Repr

namespace FileResult

/-- The number of regions that were expanded. -/
def okCount (r : FileResult) : Nat := (r.expansions.filter Expansion.succeeded).length

/-- The number of regions that were not. -/
def errorCount (r : FileResult) : Nat := (r.expansions.filter fun e => !e.succeeded).length

/-- The file was built and all its regions were expanded. -/
def ok (r : FileResult) : Bool := r.error.isNone && r.errorCount == 0

end FileResult

/-- The results of a build. -/
structure BuildReport where
  files : List FileResult := []
  duration : Duration := .zero
deriving DecidableEq, Repr

namespace BuildReport

/-- The files that were not built, or not all of whose regions were expanded. -/
def failed (r : BuildReport) : List FileResult := r.files.filter fun f => !f.ok

/-- No file failed. -/
def ok (r : BuildReport) : Bool := r.failed.isEmpty

end BuildReport

/-! ## 2. Files with retries -/

/-- What an operation on a disk leads to. -/
structure Outcome (ε α : Type) where
  result : Except ε α
  disk : Disk
  log : List LogRecord := []

/-- How often a file is tried, and the pause between attempts. -/
structure Patience where
  retries : Int := 10
  delay : Duration := .ofRatio 1 20
deriving DecidableEq, Repr

/-- A pause, when the clock reads `reading`. -/
def pause (delay : Duration) (reading : Nat) : Except FileError Unit :=
  match delay.pauseFault? reading with
  | some f => .error (.pause f)
  | none => .ok ()

/-- What is tried when an operation is to be done on the file at a path: the operation in the
conditions of its attempt, and pauses that the clock allows.  The state is the number of attempts
that have been made, and the disk. -/
def retrying {α : Type} (system : System) (p : Path) (delay : Duration)
    (operation : Disk.Conditions → Disk → Except Disk.FileFault α × Disk) :
    Retry (Nat × Disk) Duration FileError α where
  operation := fun w =>
    let done := operation (system.conditions p (w.1 + 1)) w.2
    (done.1.mapError .file, w.1 + 1, done.2)
  isMissing := FileError.isMissing
  isOfSystem := FileError.isOfSystem
  delay := delay
  sleep := fun delay w => (pause delay (system.clock p w.1), w)

/-- Tries an operation on the file at a path as often as wanted, and notes the attempts after which
there is to be another. -/
def withRetries {α : Type} (system : System) (name : Text) (p : Path) (patience : Patience)
    (operation : Disk.Conditions → Disk → Except Disk.FileFault α × Disk) (d : Disk) :
    Outcome FileError α :=
  let r := (retrying system p patience.delay operation).start patience.retries (0, d)
  ⟨r.ending.result .unreachable, r.state.2, r.notes.map fun (attempt, e) =>
    .retried (name ++ p.text) attempt (Retry.attempts patience.retries) e.message⟩

/-- Reads a file. -/
def fetchText (system : System) (d : Disk) (cwd p : Path) (patience : Patience) :
    Outcome FileError Text :=
  withRetries system "read " p patience (fun c d => (d.readText cwd p c, d)) d

/-- Writes a file. -/
def storeText (system : System) (d : Disk) (cwd p : Path) (t : Text) (patience : Patience) :
    Outcome FileError Unit :=
  withRetries system "write " p patience (fun c d => d.writeText cwd p t c) d

/-! ## 3. One file -/

/-- How files are built. -/
structure Plan where
  names : Names := {}
  generatedDir : Text := Path.generatedDir
  outputSuffix : Text := Path.outputSuffix
  patience : Patience := {}
deriving DecidableEq, Repr

/-- The plan that settings ask for. -/
def Plan.ofSettings (s : Settings) : Except Failure Plan :=
  match Duration.ofMilliseconds? s.retryDelayMs.toNat with
  | none => .error .delayTooGreat
  | some delay => .ok ⟨s.names, s.generatedDir, s.outputSuffix, ⟨s.retries, delay⟩⟩

/-- Reads a source, expands it and writes the output. -/
def compile (system : System) (d : Disk) (cwd source output : Path) (names : Names)
    (patience : Patience) :
    Outcome FileError (List Expansion) :=
  let input := fetchText system d cwd source patience
  match input.result with
  | .error f => ⟨.error f, input.disk, input.log⟩
  | .ok t =>
    let expanded := expand names t
    let notes := expanded.log.map .expansion
    let written := storeText system input.disk cwd output expanded.text patience
    ⟨written.result.map fun _ => expanded.expansions, written.disk,
      input.log ++ notes ++ written.log⟩

/-- The result of building one source, but for the time it took. -/
def buildFileUntimed (system : System) (d : Disk) (cwd root source : Path) (plan : Plan) :
    Outcome Failure FileResult :=
  match Path.output cwd source root plan.generatedDir plan.outputSuffix with
  | .error f => ⟨.error (.outputName f), d, []⟩
  | .ok output =>
    let compiled := compile system d cwd source output plan.names plan.patience
    match compiled.result with
    | .ok expansions => ⟨.ok { source, output, expansions }, compiled.disk, compiled.log⟩
    | .error f =>
      if f.isReported then
        ⟨.ok { source, output, error := some (f.label ++ ": " ++ f.message) }, compiled.disk,
          compiled.log ++ [.failedBuilding source f.message]⟩
      else ⟨.error (.file f), compiled.disk, compiled.log⟩

section Timed

variable {m : Type → Type} [Monad m] (now : m Duration) (system : System)

/-- Builds one source. -/
def buildFile (d : Disk) (cwd root source : Path) (plan : Plan) :
    m (Outcome Failure FileResult) := do
  let start ← now
  let built := buildFileUntimed system d cwd root source plan
  match built.result with
  | .error _ => return built
  | .ok r =>
    let stop ← now
    return { built with result := .ok { r with duration := start.between stop } }

/-! ## 4. Many files -/

/-- Builds sources in order, up to the first that stops the build. -/
def buildEach (d : Disk) (cwd root : Path) (s : Settings) :
    List Path → m (Outcome Failure (List FileResult))
  | [] => return ⟨.ok [], d, []⟩
  | source :: rest => do
    match Plan.ofSettings s with
    | .error f => return ⟨.error f, d, []⟩
    | .ok plan =>
      let built ← buildFile now system d cwd root source plan
      match built.result with
      | .error f => return ⟨.error f, built.disk, built.log⟩
      | .ok r =>
        let others ← buildEach built.disk cwd root s rest
        return ⟨others.result.map fun rs => r :: rs, others.disk, built.log ++ others.log⟩

/-- Builds sources and reports. -/
def buildFiles (d : Disk) (cwd root : Path) (s : Settings) (files : List Path) :
    m (Outcome Failure BuildReport) := do
  let start ← now
  let built ← buildEach now system d cwd root s files
  match built.result with
  | .error f => return ⟨.error f, built.disk, built.log⟩
  | .ok files =>
    let stop ← now
    return ⟨.ok { files, duration := start.between stop }, built.disk, built.log⟩

/-- Builds all sources of a project. -/
def buildAll (d : Disk) (cwd root : Path) (s : Settings) : m (Outcome Failure BuildReport) := do
  let generated := root.child s.generatedDir
  match d.makeDirectories cwd generated (system.conditions generated 1) with
  | (.error f, d) => return ⟨.error (.disk f), d, []⟩
  | (.ok (), d) =>
    match sources d cwd root (.ofSettings s) system.scanning with
    | .error f => return ⟨.error f, d, []⟩
    | .ok files => buildFiles now system d cwd root s files

end Timed

end InlineMarkup.Project
