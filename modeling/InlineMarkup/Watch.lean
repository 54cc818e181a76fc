import InlineMarkup.Project.Build
import InlineMarkup.Report.Json

/-!
# Watching

Changes of files come in batches.  From each batch the sources are kept; those that are gone are
told, and for the others, if any, a cycle is run, which builds them.  A cycle that fails is told
and does not end the watch.

The loop is told what happens when a batch arrives, which files exist and what a cycle does; its
state and its failures may be of any type.  What it does itself is the list of events.
-/

namespace InlineMarkup.Watch

open Project (BuildReport)

/-! ## 1. Batches and cycles -/

/-- Which files are watched. -/
structure Scope where
  roots : List Path
  suffix : Text := Path.sourceSuffix
  generated : Option Path := none
deriving DecidableEq, Repr

/-- The path is that of a source under one of the roots. -/
def Scope.contains (s : Scope) (p : Path) : Bool :=
  p.isSource s.suffix s.generated && s.roots.any p.isUnder

/-- The sources among changed paths, in order and each once. -/
def Scope.sources (s : Scope) (changed : List Path) : List Path :=
  Path.sorted (changed.filter s.contains)

/-- The result of a cycle. -/
structure Cycle where
  report : BuildReport := {}
  duration : Duration := .zero
  changed : List Path := []
deriving DecidableEq, Repr

/-- The cycle built all its files without errors. -/
def Cycle.ok (c : Cycle) : Bool := c.report.ok

/-- Texts in order. -/
def inOrder (texts : List Text) : List Text := texts.mergeSort fun a b => !Text.precedes b a

/-- A cycle as JSON. -/
def Cycle.json (c : Cycle) : Json :=
  .object [("command", .string "watch"), ("ok", .boolean c.ok),
    ("duration_s", .number c.duration.seconds),
    ("changed_paths", .array ((inOrder (c.changed.map Path.text)).map .string)),
    ("failed", .array ((inOrder (c.report.failed.map fun f => f.source.text)).map .string))]

/-! ## 2. The loop -/

/-- What the loop does. -/
inductive Event (ε : Type) where
  /-- A batch has arrived. -/
  | batch
  /-- A message. -/
  | notice (message : Text)
  /-- A cycle is run for these paths. -/
  | cycle (changed : List Path)
  /-- The cycle has noted something. -/
  | noted (log : List LogRecord)
  /-- The cycle has a result. -/
  | result (c : Cycle)
  /-- The cycle has failed. -/
  | failed (e : ε)

/-- What the loop is told about the world. -/
structure World (m : Type → Type) (σ ε β : Type) where
  /-- A batch arrives: the changed paths. -/
  arrive : β → σ → List Path × σ
  /-- A path is that of a file. -/
  exists? : σ → Path → Except ε Bool
  /-- A cycle is run. -/
  runCycle : List Path → σ → m (Except ε Cycle × List LogRecord × σ)

/-- What is told about a file that is gone. -/
def goneMessage (p : Path) : Text := "[watch] file no longer exists: " ++ p.name

/-- What is told before a cycle. -/
def changeMessage (present : List Path) : Text :=
  "[watch] change detected: " ++ Text.joinWith ", " (present.map Path.name)

/-- What is told after a cycle. -/
def doneMessage (c : Cycle) : Text := "[watch] done (" ++ c.duration.shown ++ ")"

section Loop

variable {m : Type → Type} [Monad m] {σ ε β : Type}

/-- Splits sources into those that are gone and those that exist. -/
def partitionGone (isThere : Path → Except ε Bool) : List Path → Except ε (List Path × List Path)
  | [] => .ok ([], [])
  | p :: rest => do
    let there ← isThere p
    let (gone, present) ← partitionGone isThere rest
    return if there then (gone, p :: present) else (p :: gone, present)

/-- What the loop does for the sources of a batch. -/
def step (w : World m σ ε β) (sources : List Path) (s : σ) :
    m (List (Event ε) × Except ε Unit × σ) := do
  match partitionGone (w.exists? s) sources with
  | .error e => return ([], .error e, s)
  | .ok (gone, present) =>
    let notices := gone.map fun p => .notice (goneMessage p)
    if present.isEmpty then return (notices, .ok (), s)
    else
      let (outcome, log, s) ← w.runCycle present s
      let before := notices ++ [.notice (changeMessage present), .cycle present, .noted log]
      match outcome with
      | .error e => return (before ++ [.failed e], .ok (), s)
      | .ok c => return (before ++ [.notice (doneMessage c), .result c], .ok (), s)

/-- The events of all batches, and whether the loop came to its end. -/
def loop (w : World m σ ε β) (scope : Scope) : List β → σ → m (List (Event ε) × Except ε Unit × σ)
  | [], s => return ([], .ok (), s)
  | batch :: rest, s => do
    let (changed, s) := w.arrive batch s
    let (events, outcome, s) ← step w (scope.sources changed) s
    match outcome with
    | .error e => return (.batch :: events, .error e, s)
    | .ok () =>
      let (later, outcome, s) ← loop w scope rest s
      return (.batch :: events ++ later, outcome, s)

end Loop

/-! ## 3. Cycles that build -/

/-- Builds changed files. -/
def buildCycle {m : Type → Type} [Monad m] (now : m Duration) (system : Project.System)
    (cwd root : Path) (s : Settings) (changed : List Path) (d : Disk) :
    m (Except Project.Failure Cycle × List LogRecord × Disk) := do
  let start ← now
  let built ← Project.buildFiles now system d cwd root s (Path.sorted changed)
  match built.result with
  | .error f => return (.error f, built.log, built.disk)
  | .ok report =>
    let stop ← now
    return (.ok { report, duration := start.between stop, changed }, built.log, built.disk)

end InlineMarkup.Watch
