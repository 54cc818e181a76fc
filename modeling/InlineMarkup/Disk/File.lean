import InlineMarkup.Disk

/-!
# Reading and writing files

Reading gives the text of a file with all line ends as line feeds.  Writing is atomic: the text
goes into a new file beside the target, which then takes the target's place in one step; whatever
happens, the new file is removed afterwards.  Missing directories are made on the way, and stay.

Each step may be refused by the system, whatever the disk is like.  What is refused in an attempt is
told by its `Conditions`; without them nothing is.
-/

namespace InlineMarkup

namespace Disk

/-! ## 1. Conditions -/

/-- What the system refuses of one attempt at reading or writing a file. -/
structure Conditions where
  /-- The file cannot be opened. -/
  opening : Option Refusal := none
  /-- The file cannot be read. -/
  reading : Option Refusal := none
  /-- A directory cannot be made. -/
  making : Path → Option Refusal := fun _ => none
  /-- A directory cannot be made when those above it have been. -/
  makingAgain : Path → Option Refusal := fun _ => none
  /-- It cannot be seen whether a directory is there. -/
  looking : Path → Option Refusal := fun _ => none
  /-- A new file cannot be made. -/
  creating : Option Refusal := none
  /-- The new file takes in only so many bytes. -/
  filling : Option (Nat × Refusal) := none
  /-- The new file cannot take the target's place. -/
  replacing : Option Refusal := none
  /-- The new file cannot be removed. -/
  removing : Option Refusal := none

/-! ## 2. Reading -/

/-- The bytes of a file. -/
def readBytes (d : Disk) (cwd p : Path) : Except Fault (List UInt8) :=
  match d.find cwd p with
  | .ok (.file bytes) => .ok bytes
  | .ok .directory => .error ⟨.isDirectory, p.text, none⟩
  | .error reason => .error ⟨reason, p.text, none⟩

/-- The text with carriage returns, alone or before a line feed, as line feeds. -/
def unifyLineEnds : Text → Text
  | '\r' :: '\n' :: rest => '\n' :: unifyLineEnds rest
  | '\r' :: rest => '\n' :: unifyLineEnds rest
  | c :: rest => c :: unifyLineEnds rest
  | [] => []

/-- Why a file could not be read or written. -/
inductive FileFault where
  | disk (f : Fault)
  /-- A file that is open cannot be read or filled; such a fault names no path. -/
  | stream (r : Refusal)
  | undecodable (f : Utf8.Fault)
deriving DecidableEq, Repr

namespace FileFault

/-- The wording of a fault. -/
def message : FileFault → Text
  | disk f => f.message
  | stream r => numbered r.number r.phrase
  | undecodable f => f.message

/-- The name of the class of a fault. -/
def label : FileFault → Text
  | disk f => f.reason.label
  | stream r => classOf r.number
  | undecodable _ => "UnicodeDecodeError"

/-- The fault is that something is missing. -/
def isMissing : FileFault → Bool
  | disk f => f.reason == .missing
  | _ => false

/-- The fault is one of the system. -/
def isOfSystem : FileFault → Bool
  | disk f => f.reason != .embeddedNul
  | stream _ => true
  | undecodable _ => false

/-- The fault may pass: something is in the way that another program may take away. -/
def mayPass (f : FileFault) : Bool := f.isOfSystem && !f.isMissing

end FileFault

/-- The text of a file. -/
def readText (d : Disk) (cwd p : Path) (c : Conditions := {}) : Except FileFault Text :=
  match c.opening with
  | some r => .error (.disk ⟨.refused r, p.text, none⟩)
  | none =>
    match d.readBytes cwd p with
    | .error f => .error (.disk f)
    | .ok bytes =>
      match c.reading with
      | some r => .error (.stream r)
      | none =>
        match Utf8.decode bytes with
        | .error f => .error (.undecodable f)
        | .ok t => .ok (unifyLineEnds t)

/-! ## 3. Directories -/

/-- Makes a directory in one that exists. -/
def makeDirectory (d : Disk) (cwd p : Path) (refusal : Option Refusal := none) :
    Except Reason Disk :=
  match refusal with
  | some r => .error (.refused r)
  | none =>
    match d.place cwd p with
    | .error reason => .error reason
    | .ok .here => .error .alreadyExists
    | .ok (.named directory name) =>
      if (d.entry? (directory ++ [name])).isSome then .error .alreadyExists
      else .ok (d.insert (directory ++ [name]) .directory)

/-- The directory could not be made; that is no fault when it is there. -/
def acceptDirectory (d : Disk) (cwd p : Path) (reason : Reason)
    (refusal : Option Refusal := none) : Except Fault Unit × Disk :=
  match refusal with
  | some r => (.error ⟨.refused r, p.text, none⟩, d)
  | none =>
    match d.isDirectory cwd p with
    | .ok true => (.ok (), d)
    | .ok false => (.error ⟨reason, p.text, none⟩, d)
    | .error f => (.error f, d)

/-- Makes a directory and those above it, unless they are there. -/
def makeDirectories (d : Disk) (cwd p : Path) (c : Conditions := {}) : Except Fault Unit × Disk :=
  match d.makeDirectory cwd p (c.making p) with
  | .ok d => (.ok (), d)
  | .error .missing =>
    if p.parts = [] then (.error ⟨.missing, p.text, none⟩, d)
    else
      match makeDirectories d cwd p.parent c with
      | (.error f, d) => (.error f, d)
      | (.ok (), d) =>
        match d.makeDirectory cwd p (c.makingAgain p) with
        | .ok d => (.ok (), d)
        | .error .missing => (.error ⟨.missing, p.text, none⟩, d)
        | .error reason => d.acceptDirectory cwd p reason (c.looking p)
  | .error reason => d.acceptDirectory cwd p reason (c.looking p)
termination_by p.parts.length
decreasing_by
  rename_i h
  have := List.length_pos_iff.2 h
  rw [Path.parent, List.length_dropLast]
  omega

/-! ## 4. Writing -/

/-- How the names of new files start. -/
def temporaryStem : Text := ".tagweave-tmp-"

/-- A number in eight digits. -/
def eightDigits (n : Nat) : Text :=
  let digits := Text.ofNat n
  List.replicate (8 - digits.length) '0' ++ digits

/-- The names for new files. -/
def temporary (suffix : Text) (n : Nat) : Text := temporaryStem ++ eightDigits n ++ suffix

/-- A name for a new file in a directory: the first that is not taken, and is not that of the
target. -/
def temporaryName (d : Disk) (directory : Location) (target suffix : Text) : Text :=
  let taken := target :: d.namesIn directory
  match (List.range (taken.length + 1)).find? fun n => !taken.contains (temporary suffix n) with
  | some n => temporary suffix n
  | none => temporary suffix taken.length

/-- Moves a file to the place that a path names. -/
def replaceBy (d : Disk) (cwd : Path) (file : Location) (bytes : List UInt8) (p : Path) :
    Except Reason Disk :=
  match d.place cwd p with
  | .error reason => .error reason
  | .ok .here => .error .busy
  | .ok (.named directory name) =>
    match d.entry? (directory ++ [name]) with
    | some .directory => .error .isDirectory
    | _ => .ok ((d.erase file).insert (directory ++ [name]) (.file bytes))

/-- The path in a directory with this name. -/
def named (directory : Path) (name : Text) : Path :=
  { directory with parts := directory.parts ++ [name] }

/-- Fills a new file with bytes and moves it to the place that a path names. -/
def fillAndMove (d : Disk) (cwd file : Path) (bytes : List UInt8) (p : Path) (c : Conditions) :
    Except FileFault Unit × Disk :=
  match c.filling with
  | some (size, r) => (.error (.stream r), d.insert file.parts (.file (bytes.take size)))
  | none =>
    let filled := d.insert file.parts (.file bytes)
    match c.replacing with
    | some r => (.error (.disk ⟨.refused r, file.text, some p.text⟩), filled)
    | none =>
      match filled.replaceBy cwd file.parts bytes p with
      | .ok d => (.ok (), d)
      | .error reason => (.error (.disk ⟨reason, file.text, some p.text⟩), filled)

/-- Removes a new file when all is done; one that has been moved is not there any more.  If that is
refused, the refusal takes the place of what came before. -/
def removeNew (file : Path) (c : Conditions) (moved : Except FileFault Unit × Disk) :
    Except FileFault Unit × Disk :=
  match c.removing with
  | some r => (.error (.disk ⟨.refused r, file.text, none⟩), moved.2)
  | none =>
    match moved with
    | (.ok (), d) => (.ok (), d)
    | (.error f, d) => (.error f, d.erase file.parts)

/-- Puts a text into a file whose directory is there, atomically.  All names for new files count as
equally long, so whether one can be made is asked of the first. -/
def putText (d : Disk) (cwd p : Path) (t : Text) (c : Conditions := {}) :
    Except FileFault Unit × Disk :=
  let directory := Path.absolute cwd p.parent
  let first := named directory (temporary p.suffix 0)
  match c.creating with
  | some r => (.error (.disk ⟨.refused r, first.text, none⟩), d)
  | none =>
    match d.place cwd first with
    | .error reason => (.error (.disk ⟨reason, first.text, none⟩), d)
    | .ok _ =>
      let target := (Path.absolute cwd p).name
      let file := named directory (d.temporaryName directory.parts target p.suffix)
      removeNew file c (d.fillAndMove cwd file (Utf8.encode t) p c)

/-- Writes a text to a file, and makes the directories that it needs. -/
def writeText (d : Disk) (cwd p : Path) (t : Text) (c : Conditions := {}) :
    Except FileFault Unit × Disk :=
  match d.makeDirectories cwd p.parent c with
  | (.error f, d) => (.error (.disk f), d)
  | (.ok (), d) => d.putText cwd p t c

end Disk

end InlineMarkup
