import InlineMarkup.Report.Duration

/-!
# Pauses between attempts

The clock counts nanoseconds in 63 bits.  A pause whose length is beyond that count is refused,
and so is one that would end after the clock's last moment, which depends on what the clock reads
when the pause starts.
-/

namespace InlineMarkup

/-- Why a pause is refused. -/
inductive PauseFault where
  /-- The length cannot be counted. -/
  | tooLong
  /-- The pause would end after the last moment. -/
  | pastLastMoment
deriving DecidableEq, Repr

namespace PauseFault

/-- The name of the class of a fault. -/
def label : PauseFault → Text
  | tooLong => "OverflowError"
  | pastLastMoment => "OSError"

/-- The wording of a fault. -/
def message : PauseFault → Text
  | tooLong => "timestamp too large to convert to C _PyTime_t"
  | pastLastMoment => "[Errno 22] Invalid argument"

end PauseFault

/-- The number of nanoseconds that the clock can count. -/
def clockRange : Nat := Nat.pow 2 63

/-- The length of a pause cannot be counted. -/
def Duration.isUncountable (d : Duration) : Bool := d.nanoseconds.atLeast clockRange

/-- Why a pause of this length is refused, if it is, when the clock reads `reading`. -/
def Duration.pauseFault? (d : Duration) (reading : Nat) : Option PauseFault :=
  if d.isUncountable then some .tooLong
  else if d.nanoseconds.atLeast (clockRange - reading) then some .pastLastMoment
  else none

end InlineMarkup
