import InlineMarkup.Text.Basic

/-!
# Retrying

An operation that fails for a reason that may pass is tried again after a pause, a given number of
times in all.  A fault may pass if it is one of the system, unless it is that a file is missing; the
loop asks for the latter first.

The loop counts the attempts and writes down what it does: calls, and pauses with their lengths.
`Retried` is the whole course of it.  When no attempt is left and nothing has been returned or
raised, the loop falls through; that this never happens is a theorem about it.
-/

namespace InlineMarkup

/-- What is tried, and how it is tried again. -/
structure Retry (σ δ ε α : Type) where
  operation : σ → Except ε α × σ
  /-- The fault is that a file is missing. -/
  isMissing : ε → Bool
  /-- The fault is one of the system. -/
  isOfSystem : ε → Bool
  /-- The length of a pause. -/
  delay : δ
  /-- A pause, which may be refused. -/
  sleep : δ → σ → Except ε Unit × σ

namespace Retry

/-- What the loop does. -/
inductive Action (δ : Type) where
  | call
  | sleep (delay : δ)
deriving DecidableEq, Repr

/-- How the loop ends. -/
inductive Ending (ε α : Type) where
  | returned (a : α)
  | raised (e : ε)
  /-- The loop is over, and nothing has been returned or raised. -/
  | fellThrough
deriving DecidableEq, Repr

/-- The end of a loop as a result, given what falling through counts as. -/
def Ending.result {ε α : Type} (otherwise : ε) : Ending ε α → Except ε α
  | returned a => .ok a
  | raised e => .error e
  | fellThrough => .error otherwise

end Retry

/-- The course of an operation with retries. -/
structure Retried (σ δ ε α : Type) where
  /-- What was done, in order. -/
  trace : List (Retry.Action δ)
  /-- The attempts after which there was to be another, each with its fault. -/
  notes : List (Nat × ε)
  ending : Retry.Ending ε α
  state : σ

namespace Retried

variable {σ δ ε α : Type}

/-- A call, and nothing after it. -/
def final (ending : Retry.Ending ε α) (s : σ) : Retried σ δ ε α := ⟨[.call], [], ending, s⟩

/-- The attempt number `attempt` has failed with `e` and the pause is refused with `e'`. -/
def cutShort (attempt : Nat) (e : ε) (delay : δ) (e' : ε) (s : σ) : Retried σ δ ε α :=
  ⟨[.call, .sleep delay], [(attempt, e)], .raised e', s⟩

/-- The attempt number `attempt` has failed with `e`, and after a pause there was more. -/
def after (attempt : Nat) (e : ε) (delay : δ) (r : Retried σ δ ε α) : Retried σ δ ε α :=
  ⟨.call :: .sleep delay :: r.trace, (attempt, e) :: r.notes, r.ending, r.state⟩

end Retried

namespace Retry

variable {σ δ ε α : Type}

/-- Goes over the attempts, of which there are `attempts` in all.  So many are left, and the first
of them has the number `attempt`. -/
def run (r : Retry σ δ ε α) (attempts : Nat) : (left attempt : Nat) → σ → Retried σ δ ε α
  | 0, _, s => ⟨[], [], .fellThrough, s⟩
  | left + 1, attempt, s =>
    match r.operation s with
    | (.ok a, s) => .final (.returned a) s
    | (.error e, s) =>
      if r.isMissing e then .final (.raised e) s
      else if r.isOfSystem e then
        if attempt = attempts then .final (.raised e) s
        else
          match r.sleep r.delay s with
          | (.error e', s) => .cutShort attempt e r.delay e' s
          | (.ok (), s) => .after attempt e r.delay (r.run attempts left (attempt + 1) s)
      else .final (.raised e) s

/-- The number of attempts; there is always one. -/
def attempts (wanted : Int) : Nat := (max 1 wanted).toNat

/-- Tries an operation as often as wanted, and at least once. -/
def start (r : Retry σ δ ε α) (wanted : Int) (s : σ) : Retried σ δ ε α :=
  r.run (attempts wanted) (attempts wanted) 1 s

end Retry

end InlineMarkup
