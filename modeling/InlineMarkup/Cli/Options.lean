import InlineMarkup.Cli.Integer
import InlineMarkup.Text.Quoted

/-!
# Options on a command line

Before anything is done each argument is classified: as an option, as one that looks like an
option and is unknown, or as plain.  An option may be written by a unique beginning of its long
name, with its value after `=`, or, when its name is a single letter, in a row with others.  An
argument that looks like a negative number or holds a space is plain unless it is an option, and
everything after `--` is plain.

The options are then worked off from left to right.  What is not an option, nor the value of
one, is left over.
-/

namespace InlineMarkup.Cli

/-! ## 1. Options -/

/-- What is given for an option: a value, or nothing, when `--` is given in the place of a
value. -/
inductive Given (α : Type) where
  | value (a : α)
  | nothing
deriving DecidableEq, Repr

/-- What an option does to the settings `α` of a command line. -/
inductive Action (α : Type) where
  | flag (set : α → α)
  | text (set : Given Text → α → α)
  | integer (set : Given Int → α → α)
  | help
  | version

/-- The option is followed by a value. -/
def Action.takesValue {α : Type} : Action α → Bool
  | .text _ | .integer _ => true
  | _ => false

/-- An option: its names and what it does. -/
structure Switch (α : Type) where
  names : List Text
  action : Action α

/-- The names of an option as shown in messages. -/
def Switch.shown {α : Type} (o : Switch α) : Text := Text.joinWith "/" o.names

/-- What is wrong with a command line. -/
inductive Fault where
  /-- The beginning of several options. -/
  | ambiguous (argument : Text) (names : List Text)
  /-- A value for an option that takes none. -/
  | ignoredValue (option value : Text)
  /-- No value for an option that takes one. -/
  | expectedValue (option : Text)
  /-- A value that is not an integer. -/
  | invalidInteger (option value : Text)
  /-- Not the name of a command. -/
  | invalidCommand (value : Text) (commands : List Text)
  /-- There is no command. -/
  | missingCommand
  /-- Arguments are left over. -/
  | unrecognized (arguments : List Text)
deriving DecidableEq, Repr

/-- The wording of a fault. -/
def Fault.message : Fault → Text
  | ambiguous argument names =>
    "ambiguous option: " ++ argument ++ " could match " ++ Text.joinWith ", " names
  | ignoredValue option value =>
    "argument " ++ option ++ ": ignored explicit argument " ++ Text.quoted value
  | expectedValue option => "argument " ++ option ++ ": expected one argument"
  | invalidInteger option value =>
    "argument " ++ option ++ ": invalid int value: " ++ Text.quoted value
  | invalidCommand value commands =>
    "argument command: invalid choice: " ++ Text.quoted value ++ " (choose from " ++
      Text.joinWith ", " (commands.map Text.quoted) ++ ")"
  | missingCommand => "the following arguments are required: command"
  | unrecognized arguments => "unrecognized arguments: " ++ Text.joinWith " " arguments

/-- Why a command line is not worked off to its end. -/
inductive Halt where
  | fault (f : Fault)
  | help
  | version
deriving DecidableEq, Repr

/-! ## 2. Classifying arguments -/

/-- What an argument is. -/
inductive Class (α : Type) where
  | plain
  /-- The argument `--`. -/
  | separator
  | unknown
  | option (o : Switch α) (name : Text) (value : Option Text)

section Classify

variable {α : Type} (options : List (Switch α))

/-- The names of all options, in order. -/
def allNames : List (Switch α × Text) := options.flatMap fun o => o.names.map fun n => (o, n)

/-- The option with exactly this name. -/
def named? (name : Text) : Option (Switch α) :=
  ((allNames options).find? fun p => p.2 == name).map Prod.fst

/-- The text before the first `=` and the text after it, if there is one. -/
def cutAtEquals (t : Text) : Text × Option Text :=
  match t.dropWhile (· != '=') with
  | _ :: value => (t.takeWhile (· != '='), some value)
  | [] => (t, none)

/-- The options that an argument may be short for, with their names and values. -/
def candidates (argument : Text) : List (Switch α × Text × Option Text) :=
  if Text.startsWith argument "--" then
    let (start, value) := cutAtEquals argument
    ((allNames options).filter fun p => Text.startsWith p.2 start).map fun p => (p.1, p.2, value)
  else
    (allNames options).filterMap fun p =>
      if p.2 = argument.take 2 then some (p.1, p.2, some (argument.drop 2))
      else if Text.startsWith p.2 argument then some (p.1, p.2, none)
      else none

/-- What an argument other than `--` is. -/
def classify (argument : Text) : Except Fault (Class α) :=
  if !Text.startsWith argument "-" then .ok .plain
  else
    match named? options argument with
    | some o => .ok (.option o argument none)
    | none =>
      if argument.length = 1 then .ok .plain
      else
        match cutAtEquals argument with
        | (name, some value) =>
          match named? options name with
          | some o => .ok (.option o name (some value))
          | none => loose argument
        | (_, none) => loose argument
where
  /-- What an argument is that does not hold the full name of an option. -/
  loose (argument : Text) : Except Fault (Class α) :=
    match candidates options argument with
    | [] => .ok (if looksNegative argument || argument.contains ' ' then .plain else .unknown)
    | [(o, name, value)] => .ok (.option o name value)
    | several => .error (.ambiguous argument (several.map fun c => c.2.1))

/-- What each of some arguments is. -/
def classifyAll : List Text → Except Fault (List (Text × Class α))
  | [] => .ok []
  | argument :: rest =>
    if argument = "--".toList then
      .ok ((argument, .separator) :: rest.map fun a => (a, .plain))
    else
      match classify options argument with
      | .error f => .error f
      | .ok c =>
        match classifyAll rest with
        | .error f => .error f
        | .ok cs => .ok ((argument, c) :: cs)

/-! ## 3. Working options off -/

/-- Takes apart a row of single letters: the options in it and the value of the last.  `letters`
is what follows the option `o` in the argument. -/
def unrow (o : Switch α) (name : Text) :
    Text → Except Fault (List (Switch α × Option Text))
  | [] => .error (.ignoredValue o.shown [])
  | c :: rest =>
    if o.action.takesValue then .ok [(o, some (c :: rest))]
    else if Text.startsWith name "--" then .error (.ignoredValue o.shown (c :: rest))
    else
      match named? options ['-', c] with
      | none => .error (.ignoredValue o.shown (c :: rest))
      | some next =>
        match rest with
        | [] => .ok [(o, none), (next, none)]
        | rest =>
          match unrow next ['-', c] rest with
          | .error f => .error f
          | .ok row => .ok ((o, none) :: row)

/-- The options that one argument stands for. -/
def row (o : Switch α) (name : Text) :
    Option Text → Except Fault (List (Switch α × Option Text))
  | none => .ok [(o, none)]
  | some [] => if o.action.takesValue then .ok [(o, some [])] else unrow options o name []
  | some value => unrow options o name value

/-- A value that is given; `--` counts as none. -/
def given (value : Text) : Given Text := if value = "--".toList then .nothing else .value value

/-- Does what an option does. -/
def act (o : Switch α) (value : Text) (s : α) : Except Halt α :=
  match o.action with
  | .flag set => .ok (set s)
  | .text set => .ok (set (given value) s)
  | .integer set =>
    match given value with
    | .nothing => .ok (set .nothing s)
    | .value t =>
      match integer? t with
      | some i => .ok (set (.value i) s)
      | none => .error (.fault (.invalidInteger o.shown t))
  | .help => .error .help
  | .version => .error .version

/-- Does what options in a row do. -/
def actAll (s : α) : List (Switch α × Option Text) → Except Halt α
  | [] => .ok s
  | (o, value) :: rest =>
    match act o (value.getD []) s with
    | .error h => .error h
    | .ok s => actAll s rest

/-- The last option in a row still needs a value. -/
def needsValue (row : List (Switch α × Option Text)) : Option (Switch α) :=
  match row.getLast? with
  | some (o, none) => if o.action.takesValue then some o else none
  | _ => none

/-- Works classified arguments off; gives the settings and the arguments left over. -/
def work (s : α) : List (Text × Class α) → Except Halt (α × List Text)
  | [] => .ok (s, [])
  | (argument, c) :: rest =>
    match c with
    | .option o name value =>
      match row options o name value with
      | .error f => .error (.fault f)
      | .ok opts =>
        match needsValue opts with
        | none =>
          match actAll s opts with
          | .error h => .error h
          | .ok s => work s rest
        | some last =>
          match rest with
          | (value, .plain) :: rest =>
            match actAll s (opts.dropLast ++ [(last, some value)]) with
            | .error h => .error h
            | .ok s => work s rest
          | _ => .error (.fault (.expectedValue last.shown))
    | _ =>
      match work s rest with
      | .error h => .error h
      | .ok (s, others) => .ok (s, argument :: others)

end Classify

end InlineMarkup.Cli
