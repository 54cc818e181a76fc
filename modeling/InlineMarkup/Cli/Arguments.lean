import InlineMarkup.Cli.Options

/-!
# The commands and their options

There are two commands: `build` builds a project once, and `watch` goes on building as files
change.  They share their options but one.
-/

namespace InlineMarkup.Cli

/-- The commands. -/
inductive Command where
  | build
  | watch
deriving DecidableEq, Repr

/-- The name of a command. -/
def Command.name : Command → Text
  | .build => "build"
  | .watch => "watch"

/-- All commands. -/
def Command.all : List Command := [.build, .watch]

/-- The command with a name. -/
def Command.ofName? (name : Text) : Option Command := Command.all.find? fun c => c.name == name

/-- What a command line asks for. -/
structure Arguments where
  command : Command := .build
  root : Option (Given Text) := none
  config : Option (Given Text) := none
  factory : Option (Given Text) := none
  createElement : Option (Given Text) := none
  createText : Option (Given Text) := none
  wrapText : Bool := false
  json : Bool := false
  verbose : Bool := false
  debounceMs : Option (Given Int) := none
deriving DecidableEq, Repr

/-- The option that shows a help text. -/
def helpOption {α : Type} : Switch α := ⟨["-h", "--help"], .help⟩

/-- The options before the command. -/
def mainOptions : List (Switch Unit) := [helpOption, ⟨["--version"], .version⟩]

/-- The options that both commands take. -/
def sharedOptions : List (Switch Arguments) :=
  [helpOption,
    ⟨["--root"], .text fun v a => { a with root := some v }⟩,
    ⟨["--config"], .text fun v a => { a with config := some v }⟩,
    ⟨["--factory"], .text fun v a => { a with factory := some v }⟩,
    ⟨["--create-element"], .text fun v a => { a with createElement := some v }⟩,
    ⟨["--create-text"], .text fun v a => { a with createText := some v }⟩,
    ⟨["--wrap-text"], .flag fun a => { a with wrapText := true }⟩,
    ⟨["--json"], .flag fun a => { a with json := true }⟩,
    ⟨["-v", "--verbose"], .flag fun a => { a with verbose := true }⟩]

/-- The options of a command. -/
def Command.options : Command → List (Switch Arguments)
  | .build => sharedOptions
  | .watch =>
    sharedOptions ++ [⟨["--debounce-ms"], .integer fun v a => { a with debounceMs := some v }⟩]

/-- A command line that is not worked off, and the command whose options stopped it. -/
structure Refusal where
  command : Option Command
  halt : Halt
deriving DecidableEq, Repr

/-- The arguments that a command line starts with: those left over, the name of the command, and
those after it. -/
def untilCommand : List (Text × Class Unit) → Except Halt (List Text × Text × List Text)
  | [] => .error (.fault .missingCommand)
  | (argument, c) :: rest =>
    match c with
    | .plain => .ok ([], argument, rest.map Prod.fst)
    | .separator =>
      if rest.isEmpty then .error (.fault .missingCommand)
      else .ok ([], argument, rest.map Prod.fst)
    | .unknown =>
      match untilCommand rest with
      | .error h => .error h
      | .ok (others, name, after) => .ok (argument :: others, name, after)
    | .option o name value =>
      match row mainOptions o name value with
      | .error f => .error (.fault f)
      | .ok opts =>
        match actAll () opts with
        | .error h => .error h
        | .ok () => untilCommand rest

/-- Works the arguments after a command off. -/
def workCommand (c : Command) (arguments : List Text) : Except Halt (Arguments × List Text) :=
  match classifyAll c.options arguments with
  | .error f => .error (.fault f)
  | .ok classified => work c.options { command := c } classified

/-- What a command line asks for. -/
def Arguments.ofList (arguments : List Text) : Except Refusal Arguments :=
  match classifyAll mainOptions arguments with
  | .error f => .error ⟨none, .fault f⟩
  | .ok classified =>
    match untilCommand classified with
    | .error h => .error ⟨none, h⟩
    | .ok (before, name, after) =>
      match Command.ofName? name with
      | none => .error ⟨none, .fault (.invalidCommand name (Command.all.map Command.name))⟩
      | some c =>
        match workCommand c after with
        | .error h => .error ⟨some c, h⟩
        | .ok (a, others) =>
          match before ++ others with
          | [] => .ok a
          | others => .error ⟨none, .fault (.unrecognized others)⟩

/-! ## Answers to refused command lines -/

/-- The name of the program. -/
def programName : Text := "tagweave"

/-- The version of the program. -/
def programVersion : Text := "0.1.0"

/-- The program, and a command, as named in messages. -/
def calledName : Option Command → Text
  | none => programName
  | some c => programName ++ " " ++ c.name

/-- One line on how to call the program. -/
def usage : Option Command → Text
  | none => "usage: tagweave [-h] [--version] \x7bbuild,watch\x7d ...\n"
  | some c => "usage: " ++ calledName (some c) ++ " [-h] [option ...]\n"

/-- One line for each option. -/
def optionLines {α : Type} (options : List (Switch α)) : Text :=
  options.flatMap fun o => "  " ++ Text.joinWith ", " o.names ++ "\n"

/-- The help text. -/
def helpText (c : Option Command) : Text :=
  usage c ++ "\noptions:\n" ++
    match c with
    | none => optionLines mainOptions
    | some c => optionLines c.options

namespace Refusal

/-- The exit code. -/
def code (r : Refusal) : Nat :=
  match r.halt with
  | .fault _ => 2
  | .help | .version => 0

/-- What is printed. -/
def out (r : Refusal) : Text :=
  match r.halt with
  | .fault _ => []
  | .help => helpText r.command
  | .version => programName ++ " " ++ programVersion ++ "\n"

/-- What is printed to the error stream. -/
def err (r : Refusal) : Text :=
  match r.halt with
  | .fault f => usage r.command ++ calledName r.command ++ ": error: " ++ f.message ++ "\n"
  | .help | .version => []

end Refusal

end InlineMarkup.Cli
