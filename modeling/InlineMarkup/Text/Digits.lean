import InlineMarkup.Text.Basic

/-!
# The limit on decimal digits

Integers of any size are computed with, but only so many decimal digits of one are read or
written.  An integer that comes from digits of another base can therefore be held and not be
shown.
-/

namespace InlineMarkup

/-- Why an integer is not read or not written. -/
inductive DigitFault where
  /-- There are more digits than are read. -/
  | reading (count : Nat)
  /-- There would be more digits than are written. -/
  | writing
deriving DecidableEq, Repr

namespace DigitFault

/-- The greatest number of decimal digits. -/
def mostDigits : Nat := 4300

/-- The wording of a fault. -/
def message (f : DigitFault) : Text :=
  "Exceeds the limit (" ++ Text.ofNat mostDigits ++ " digits) for integer string conversion" ++
    (match f with
      | reading count => ": value has " ++ Text.ofNat count ++ " digits"
      | writing => "") ++
    "; use sys.set_int_max_str_digits() to increase the limit"

end DigitFault

/-- The decimal digits of an integer, unless there are too many. -/
def Text.ofInt? (i : Int) : Except DigitFault Text :=
  if Nat.pow 10 DigitFault.mostDigits ≤ i.natAbs then .error .writing else .ok (Text.ofInt i)

end InlineMarkup
