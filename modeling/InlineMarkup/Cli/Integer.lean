import InlineMarkup.Text.Blank
import InlineMarkup.Text.Digits
import InlineMarkup.Text.Numeric

/-!
# Integers as arguments

An integer is written in decimal digits of any script, with single underscores between digits
and an optional sign before them.  Blanks around it do not count; of the control characters only
the usual blanks of ASCII do.
-/

namespace InlineMarkup.Cli

/-- A blank that may stand around an integer. -/
def isOuterBlank (c : Char) : Bool :=
  if c.toNat < 128 then c == ' ' || (9 ≤ c.toNat && c.toNat ≤ 13) else Text.isBlank c

/-- The values of the digits of a text in which single underscores stand between digits. -/
def digitValues : Text → Option (List Nat)
  | [] => none
  | c :: rest =>
    match Text.digitValue? c with
    | none => none
    | some d =>
      match rest with
      | [] => some [d]
      | '_' :: rest => (digitValues rest).map (d :: ·)
      | rest => (digitValues rest).map (d :: ·)

/-- The number that digits write. -/
def natural? (t : Text) : Option Nat :=
  match digitValues t with
  | none => none
  | some ds =>
    if DigitFault.mostDigits < ds.length then none
    else some (ds.foldl (fun n d => n * 10 + d) 0)

/-- The integer that a text writes. -/
def integer? (t : Text) : Option Int :=
  match Text.trimBy isOuterBlank t with
  | '-' :: digits => (natural? digits).map fun n => -(n : Int)
  | '+' :: digits => (natural? digits).map Int.ofNat
  | digits => (natural? digits).map Int.ofNat

/-- The text looks like a negative number: a minus sign and digits, or a fraction. -/
def looksNegative : Text → Bool
  | '-' :: rest =>
    let isDigit (c : Char) : Bool := (Text.digitValue? c).isSome
    let body := if rest.getLast? = some '\n' then rest.dropLast else rest
    let isRun (t : Text) : Bool := !t.isEmpty && t.all isDigit
    isRun body ||
      match body.dropWhile isDigit with
      | '.' :: fraction => isRun fraction
      | _ => false
  | _ => false

end InlineMarkup.Cli
