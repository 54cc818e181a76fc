import InlineMarkup.Disk.File
import InlineMarkup.Retry.Pause
import InlineMarkup.Settings

/-!
# Failures of a run

Everything that can stop work on a project as a whole, with the name of its class and its
wording.  Failures of one region are not among them, and of those of one file only a path that
is none for a disk and a pause that cannot be made: the others are parts of a report.
-/

namespace InlineMarkup.Project

/-! ## 1. Files -/

/-- Why work on one file comes to nothing. -/
inductive FileError where
  | file (f : Disk.FileFault)
  /-- The pause before another attempt is refused. -/
  | pause (f : PauseFault)
  /-- The loop of attempts is over without an end. -/
  | unreachable
deriving DecidableEq, Repr

namespace FileError

/-- The name of the class of an error. -/
def label : FileError → Text
  | file f => f.label
  | pause f => f.label
  | unreachable => "AssertionError"

/-- The wording of an error. -/
def message : FileError → Text
  | file f => f.message
  | pause f => f.message
  | unreachable => "unreachable"

/-- The error is that a file is missing. -/
def isMissing : FileError → Bool
  | file f => f.isMissing
  | _ => false

/-- The error is a fault of the system. -/
def isOfSystem : FileError → Bool
  | file f => f.isOfSystem
  | pause f => f != .tooLong
  | unreachable => false

/-- The error is part of a report, and work on other files goes on. -/
def isReported : FileError → Bool
  | file (.undecodable _) => true
  | e => e.isOfSystem

end FileError

/-! ## 2. Runs -/

/-- What stops a run. -/
inductive Failure where
  /-- The settings cannot be had. -/
  | settings (f : Settings.Fault)
  /-- A source root is not a directory. -/
  | sourceRoot (path : Path)
  /-- A source root cannot be scanned. -/
  | scan (path : Path) (f : Disk.Fault)
  /-- The suffix of sources cannot be searched for. -/
  | suffixPattern
  /-- The disk refuses an operation. -/
  | disk (f : Disk.Fault)
  /-- An output has no possible name. -/
  | outputName (f : Path.NameFault)
  /-- Work on a file comes to nothing, for a reason that is not reported. -/
  | file (f : FileError)
  /-- The delay between attempts is too great a number. -/
  | delayTooGreat
  /-- There is nothing to watch files with. -/
  | noWatcher
deriving DecidableEq, Repr

namespace Failure

/-- The name of the class of a failure. -/
def label : Failure → Text
  | settings f => if f.isOfConfiguration then "TagweaveConfigError" else "ValueError"
  | sourceRoot _ | scan _ _ => "TagweaveDiscoveryError"
  | suffixPattern | outputName _ => "ValueError"
  | disk f => f.reason.label
  | file f => f.label
  | delayTooGreat => "OverflowError"
  | noWatcher => "ImportError"

/-- The wording of a failure. -/
def message : Failure → Text
  | settings f => f.message
  | sourceRoot path => "Source root is not a directory: " ++ path.text
  | scan path f => "Failed scanning source root " ++ path.text ++ ": " ++ f.message
  | suffixPattern => "Invalid pattern: '**' can only be an entire path component"
  | disk f => f.message
  | outputName f => f.message
  | file f => f.message
  | delayTooGreat => "int too large to convert to float"
  | noWatcher =>
    "watchfiles is required for watch mode. Install it with: pip install tagweave[watch]"

/-- The failure is one of the settings or of the search for sources, and is reported as such. -/
def isReported : Failure → Bool
  | settings f => f.isOfConfiguration
  | sourceRoot _ | scan _ _ => true
  | _ => false

end Failure

/-- The path as seen from the root, if it can be looked up. -/
def resolved (cwd p : Path) : Except Failure Path :=
  match Path.resolve? cwd p with
  | some p => .ok p
  | none => .error (.disk ⟨.embeddedNul, p.text, none⟩)

end InlineMarkup.Project
