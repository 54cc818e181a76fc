import InlineMarkup.Text.Basic

/-!
# Durations

A duration in seconds is a binary floating-point number: an integer of up to 53 bits times a
power of two.  Everything that is shown of it is a rounding of its exact value, and a half goes
to the even neighbour.
-/

namespace InlineMarkup

/-- A duration: its sign, and its size as `mantissa * 2 ^ exponent` seconds. -/
structure Duration where
  negative : Bool := false
  mantissa : Nat := 0
  exponent : Int := 0
deriving DecidableEq, Repr, Inhabited

namespace Duration

/-- No time. -/
def zero : Duration := {}

/-! ## 1. Rounding -/

/-- The integer nearest to a quotient; a half goes to the even neighbour. -/
def roundDiv (n d : Nat) : Nat :=
  let q := n / d
  let r := n % d
  if 2 * r < d ∨ (2 * r = d ∧ q % 2 = 0) then q else q + 1

/-- The integer nearest to `n * 2 ^ e`. -/
def roundScaled (n : Nat) (e : Int) : Nat :=
  if 0 ≤ e then n * Nat.pow 2 e.toNat else roundDiv n (Nat.pow 2 e.natAbs)

/-- The number of binary digits. -/
def bits (n : Nat) : Nat := if n = 0 then 0 else n.log2 + 1

/-- The number of binary digits that are kept. -/
def precision : Nat := 53

/-- The least exponent. -/
def leastExponent : Int := -1074

/-- The nearest number that has at most 53 binary digits and an exponent that is not too low. -/
def rounded (negative : Bool) (n : Nat) (e : Int) : Duration :=
  let cut : Int := max (bits n - precision : Int) (leastExponent - e)
  if cut ≤ 0 then ⟨negative, n, e⟩ else ⟨negative, roundScaled n (-cut), e + cut⟩

/-! ## 2. Arithmetic -/

/-- The duration as a number of milliseconds, rounded. -/
def milliseconds (d : Duration) : Duration := rounded d.negative (d.mantissa * 1000) d.exponent

/-- The number with its sign, and the exponent, brought to the lower of two exponents. -/
def scaledTo (d : Duration) (e : Int) : Int :=
  let n : Int := d.mantissa * Int.pow 2 (d.exponent - e).toNat
  if d.negative then -n else n

/-- The time from `a` to `b`, rounded. -/
def between (a b : Duration) : Duration :=
  let e := min a.exponent b.exponent
  let n := b.scaledTo e - a.scaledTo e
  rounded (n < 0) n.natAbs e

/-- The number is past the greatest that can be held, and counts as infinite. -/
def isInfinite (d : Duration) : Bool := 1024 < bits d.mantissa + d.exponent

/-- A quotient, rounded.  It is first cut off after more digits than are kept, and a last digit
says whether that was exact. -/
def ofRatio (n d : Nat) : Duration :=
  let places := 64 + bits d
  let shifted := n * Nat.pow 2 places
  let cut := shifted / d
  let inexact := if shifted % d = 0 then 0 else 1
  rounded false (2 * cut + inexact) (-(places + 1 : Int))

/-- So many nanoseconds, rounded. -/
def ofNanoseconds (n : Nat) : Duration := ofRatio n (Nat.pow 10 9)

/-- So many milliseconds: the number is rounded, and then its thousandth part.  There is none
when the number cannot be held. -/
def ofMilliseconds? (n : Nat) : Option Duration :=
  let whole := rounded false n 0
  if whole.isInfinite then none
  else some (ofRatio (whole.mantissa * Nat.pow 2 whole.exponent.toNat) 1000)

/-- The duration as a number of nanoseconds, rounded. -/
def nanoseconds (d : Duration) : Duration :=
  rounded d.negative (d.mantissa * Nat.pow 10 9) d.exponent

/-- The number is not below `n`. -/
def atLeast (n : Nat) (d : Duration) : Bool :=
  !d.negative &&
    if 0 ≤ d.exponent then n ≤ d.mantissa * Nat.pow 2 d.exponent.toNat
    else n * Nat.pow 2 d.exponent.natAbs ≤ d.mantissa

/-! ## 3. Showing -/

/-- Decimal digits, at least so many. -/
def padded (places n : Nat) : Text :=
  let digits := Text.ofNat n
  List.replicate (places - digits.length) '0' ++ digits

/-- The number with so many decimal places. -/
def fixed (places : Nat) (d : Duration) : Text :=
  let unit := Nat.pow 10 places
  let scaled := roundScaled (d.mantissa * unit) d.exponent
  let whole := Text.ofNat (scaled / unit)
  let sign : Text := if d.negative then "-" else ""
  if d.isInfinite then sign ++ "inf"
  else if places = 0 then sign ++ whole
  else sign ++ whole ++ "." ++ padded places (scaled % unit)

/-- A duration as shown to people: whole milliseconds. -/
def shown (d : Duration) : Text := d.milliseconds.fixed 0 ++ "ms"

/-- Drops the zeros at the end of a decimal fraction, but for one right after the point. -/
def withoutLastZeros (t : Text) : Text :=
  let kept := (t.reverse.dropWhile (· == '0')).reverse
  if kept.getLast? = some '.' then kept ++ ['0'] else kept

/-- A duration as shown to programs: seconds, to the nearest thousandth. -/
def seconds (d : Duration) : Text := withoutLastZeros (d.fixed 3)

end Duration

end InlineMarkup
