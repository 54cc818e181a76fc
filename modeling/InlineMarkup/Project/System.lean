import InlineMarkup.Disk.File

/-!
# The system that a project is built on

A build asks the system for files, pauses and listings of directories, and the system may refuse any
of them, in one attempt and not in the next.  What it refuses is no matter of the program, so it is
a parameter of everything that builds.
-/

namespace InlineMarkup.Project

/-- What a system does that no disk tells. -/
structure System where
  /-- What is refused of an attempt at the file at a path; attempts are counted from one. -/
  conditions : Path → Nat → Disk.Conditions := fun _ _ => {}
  /-- What the clock reads, in nanoseconds, when the pause after that attempt starts. -/
  clock : Path → Nat → Nat := fun _ _ => 0
  /-- Why the directories under a source root cannot all be listed, if they cannot. -/
  scanning : Path → Option Disk.Fault := fun _ => none

/-- A system that refuses nothing that the disk allows, whatever its clock reads. -/
def System.orderly (clock : Path → Nat → Nat) : System := { clock }

end InlineMarkup.Project
