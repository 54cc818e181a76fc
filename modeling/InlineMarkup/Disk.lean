import InlineMarkup.Disk.Utf8
import InlineMarkup.Path

/-!
# Disks

A disk holds directories and files under absolute locations, and no links.  Of itself it fails for
structural reasons only: a name is missing or taken, a file stands where a directory is needed or
the other way round, a name or a path is too long, or a path holds a NUL and is no path for a disk.
The system that the disk is in may refuse an operation for reasons of its own: a file is locked,
there is no room, the disk may not be written to.

A path is followed from a directory name by name.  Each name on the way has to be that of a
directory; `..` leads up, and stays at the root there.
-/

namespace InlineMarkup

/-- What stands at a location. -/
inductive Disk.Entry where
  | directory
  | file (bytes : List UInt8)
deriving DecidableEq, Repr

/-- A location: the names that lead to it from the root. -/
abbrev Location := List Text

/-- A disk: what stands where.  The root is a directory and is not listed. -/
structure Disk where
  entries : List (Location × Disk.Entry) := []
deriving DecidableEq, Repr

namespace Disk

/-! ## 1. Faults -/

/-- The number under which the system knows that a file is missing. -/
def missingNumber : Nat := 2

/-- A reason of the system's own: its number, which is not that of a missing file, and its
wording. -/
structure Refusal where
  number : Nat
  phrase : Text
  notMissing : number ≠ missingNumber
deriving DecidableEq, Repr

/-- The name of the class of faults with this number; most have none of their own. -/
def classOf (number : Nat) : Text :=
  if number = missingNumber then "FileNotFoundError"
  else
    match number with
    | 1 | 13 => "PermissionError"
    | 3 => "ProcessLookupError"
    | 4 => "InterruptedError"
    | 10 => "ChildProcessError"
    | 11 | 114 | 115 => "BlockingIOError"
    | 17 => "FileExistsError"
    | 20 => "NotADirectoryError"
    | 21 => "IsADirectoryError"
    | 32 | 108 => "BrokenPipeError"
    | 103 => "ConnectionAbortedError"
    | 104 => "ConnectionResetError"
    | 110 => "TimeoutError"
    | 111 => "ConnectionRefusedError"
    | _ => "OSError"

/-- A number and its wording as the start of a message. -/
def numbered (number : Nat) (phrase : Text) : Text :=
  "[Errno " ++ Text.ofNat number ++ "] " ++ phrase

/-- Why an operation fails. -/
inductive Reason where
  | missing
  | busy
  | alreadyExists
  | notDirectory
  | isDirectory
  | nameTooLong
  | embeddedNul
  /-- The system refuses it. -/
  | refused (r : Refusal)
deriving DecidableEq, Repr

/-- A failed operation: the reason, the path it was about and, when a file was to be moved, the
path it was to be moved to. -/
structure Fault where
  reason : Reason
  path : Text
  target : Option Text := none
deriving DecidableEq, Repr

/-- The number under which the system knows a reason, and its wording.  A path with a NUL is
refused before it gets to a disk. -/
def Reason.code? : Reason → Option (Nat × Text)
  | missing => some (missingNumber, "No such file or directory")
  | busy => some (16, "Device or resource busy")
  | alreadyExists => some (17, "File exists")
  | notDirectory => some (20, "Not a directory")
  | isDirectory => some (21, "Is a directory")
  | nameTooLong => some (36, "File name too long")
  | embeddedNul => none
  | refused r => some (r.number, r.phrase)

/-- The name of the class of faults with this reason. -/
def Reason.label (r : Reason) : Text :=
  match r.code? with
  | none => "ValueError"
  | some (number, _) => classOf number

/-- The wording of a fault. -/
def Fault.message (f : Fault) : Text :=
  match f.reason.code? with
  | none => "embedded null byte"
  | some (number, phrase) =>
    numbered number phrase ++ ": " ++ Text.quoted f.path ++
      match f.target with
      | none => []
      | some target => " -> " ++ Text.quoted target

/-! ## 2. Entries -/

/-- What stands at a location. -/
def entry? (d : Disk) (l : Location) : Option Entry :=
  if l.isEmpty then some .directory else (d.entries.find? fun e => e.1 == l).map Prod.snd

/-- The disk without the entry at a location. -/
def erase (d : Disk) (l : Location) : Disk := ⟨d.entries.filter fun e => e.1 != l⟩

/-- The disk with an entry at a location. -/
def insert (d : Disk) (l : Location) (e : Entry) : Disk := ⟨(d.erase l).entries ++ [(l, e)]⟩

/-- The disk without the entry at a location and all entries under it. -/
def eraseTree (d : Disk) (l : Location) : Disk :=
  ⟨d.entries.filter fun e => !l.isPrefixOf e.1⟩

/-- The disk with directories wherever a location leads through. -/
def ensureDirectories (d : Disk) (l : Location) : Disk :=
  (List.range l.length).foldl
    (fun d i =>
      let part := l.take (i + 1)
      if (d.entry? part).isSome then d else d.insert part .directory)
    d

/-- The names in a directory. -/
def namesIn (d : Disk) (l : Location) : List Text :=
  d.entries.filterMap fun e =>
    match e.1.getLast? with
    | some name => if e.1.dropLast == l then some name else none
    | none => none

/-- The locations of all files under a directory. -/
def filesUnder (d : Disk) (l : Location) : List Location :=
  d.entries.filterMap fun e =>
    match e.2 with
    | .file _ => if l.isPrefixOf e.1 && l.length < e.1.length then some e.1 else none
    | .directory => none

/-! ## 3. Following paths -/

/-- The longest name, in bytes. -/
def longestName : Nat := 255

/-- The name is too long to be on a disk. -/
def isTooLong (name : Text) : Bool := longestName < Utf8.size name

/-- The longest path, in bytes. -/
def longestPath : Nat := 4095

/-- Why a path is refused before it is followed, if it is. -/
def refusal? (p : Path) : Option Reason :=
  if p.holdsNul then some .embeddedNul
  else if longestPath < Utf8.size p.text then some .nameTooLong
  else none

/-- The names by which a path is followed. -/
def steps (p : Path) : List Text :=
  (p.parts.flatMap (Text.splitAt '/')).filter fun part => !part.isEmpty

/-- Where a path is followed from. -/
def startOf (cwd p : Path) : Location := if p.isAbsolute then [] else cwd.parts

/-- Follows names from a location. -/
def follow (d : Disk) (l : Location) : List Text → Except Reason Location
  | [] => .ok l
  | name :: rest =>
    match d.entry? l with
    | none => .error .missing
    | some (.file _) => .error .notDirectory
    | some .directory =>
      if name = Path.here then follow d l rest
      else if name = Path.above then follow d l.dropLast rest
      else if isTooLong name then .error .nameTooLong
      else if (d.entry? (l ++ [name])).isSome then follow d (l ++ [name]) rest
      else .error .missing

/-- Where names lead to from the start of a path, if the path is not refused. -/
def locate (d : Disk) (cwd p : Path) (names : List Text) : Except Reason Location :=
  match refusal? p with
  | some reason => .error reason
  | none => follow d (startOf cwd p) names

/-- What a path leads to. -/
def find (d : Disk) (cwd p : Path) : Except Reason Entry := do
  let l ← locate d cwd p (steps p)
  match d.entry? l with
  | some e => .ok e
  | none => .error .missing

/-- A place at which an entry can be made. -/
inductive Place where
  /-- The path ends in a dot, or in nothing: it can only be a directory that is there. -/
  | here
  /-- A name in a directory. -/
  | named (directory : Location) (name : Text)
deriving DecidableEq, Repr

/-- The place that a path names.  The directory it is in has to exist, the entry itself does
not. -/
def place (d : Disk) (cwd p : Path) : Except Reason Place := do
  let names := steps p
  let directory ← locate d cwd p names.dropLast
  match d.entry? directory, names.getLast? with
  | _, none => .ok .here
  | some .directory, some name =>
    if name = Path.here ∨ name = Path.above then .ok .here
    else if isTooLong name then .error .nameTooLong
    else .ok (.named directory name)
  | some (.file _), _ => .error .notDirectory
  | none, _ => .error .missing

/-! ## 4. Questions -/

/-- What a path leads to, if anything; what is too long cannot be asked for. -/
def look (d : Disk) (cwd p : Path) : Except Fault (Option Entry) :=
  match d.find cwd p with
  | .ok e => .ok (some e)
  | .error .nameTooLong => .error ⟨.nameTooLong, p.text, none⟩
  | .error _ => .ok none

/-- The path leads to a file. -/
def isFile (d : Disk) (cwd p : Path) : Except Fault Bool :=
  match d.look cwd p with
  | .ok (some (.file _)) => .ok true
  | .ok _ => .ok false
  | .error f => .error f

/-- The path leads to a directory. -/
def isDirectory (d : Disk) (cwd p : Path) : Except Fault Bool :=
  match d.look cwd p with
  | .ok (some .directory) => .ok true
  | .ok _ => .ok false
  | .error f => .error f

end Disk

end InlineMarkup
