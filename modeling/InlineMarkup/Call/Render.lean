import InlineMarkup.Call.Escape
import InlineMarkup.Call.Names
import InlineMarkup.Element.Parser

/-!
# Writing calls

An element is written as a call whose first argument is its name, whose second makes the props,
and whose further arguments are its children:

    Document.CreateElement("p", new HtmlPProps { Id = "x" },
        "text",
        code
    )

Children stand on lines of their own, one step further in than their parent.  A child of code
that is still in braces stands for nothing and is left out.  An element without a name, or with
a child that is neither text nor code nor an element, cannot be written.

Each element, and the children of each, are written at an indentation of their own, and a `Writer`
is asked for it first.  `render` is refused none.  `renderAt` is refused an indentation that is not
a number of 64 bits, or for which there is no room.
-/

namespace InlineMarkup.Call

/-- The number of blanks by which children stand further in. -/
def indentStep : Int := 4

/-- An indentation; a negative one is none. -/
def spaces (indent : Int) : Text := List.replicate indent.toNat ' '

/-- One prop in the props argument. -/
def propEntry (prop : Text × Text) : Text := pascalCase prop.1 ++ " = " ++ prop.2

/-- The props argument: first the props with literal values, then those with code. -/
def propsExpression (tag : Text) (strings codes : Props) : Text :=
  match (strings ++ codes).map propEntry with
  | [] => "new " ++ propsType tag ++ " \x7b \x7d"
  | entries => "new " ++ propsType tag ++ " \x7b " ++ Text.joinWith ", " entries ++ " \x7d"

/-- Running text as an argument. -/
def textExpression (names : Names) (t : Text) : Text :=
  if names.wrapText then names.factory ++ "." ++ names.createText ++ "(" ++ literal t ++ ")"
  else literal t

/-- A code child that is still in braces. -/
def isPlaceholder (source : Text) : Bool := Text.isBraced (Text.trim source)

/-- The name of an element as an argument: in quotes unless lowering would change it. -/
def tagArgument (tag : Text) : Text := if Text.isLowerCased tag then "\"" ++ tag ++ "\"" else tag

/-- The call up to its children, without an indentation. -/
def head (names : Names) (tag : Text) (strings codes : Props) : Text :=
  names.factory ++ "." ++ names.createElement ++ "(" ++ tagArgument tag ++ ", " ++
    propsExpression tag strings codes

/-- The call with its written children. -/
def layout (names : Names) (indent : Int) (tag : Text) (strings codes : Props)
    (arguments : List Text) : Text :=
  spaces indent ++ head names tag strings codes ++
    (match arguments with
      | [] => []
      | arguments => ",\n" ++ Text.joinWith ",\n" arguments ++ "\n" ++ spaces indent) ++
    ")"

/-! ## Writers -/

/-- How writing can fail: the indentations that are refused, and how a fault of the markup is
told. -/
structure Writer (ε : Type) where
  refusal? : Int → Option ε
  fault : MarkupFault → ε

/-- The writer that is refused no indentation. -/
def Writer.free : Writer MarkupFault := ⟨fun _ => none, id⟩

section Write

variable {ε : Type} (w : Writer ε) (names : Names)

mutual

/-- A child of the element `parent` as an argument, if it is one. -/
def argument (parent : Text) (indent : Int) : Node → Except ε (Option Text)
  | .text t => .ok (some (spaces indent ++ textExpression names t))
  | .code source => .ok (if isPlaceholder source then none else some (spaces indent ++ source))
  | .unsupported kind => .error (w.fault (.unsupportedChild kind parent))
  | .element tag strings codes children =>
    if tag.isEmpty then .error (w.fault .emptyTagName)
    else
      match (w.refusal? indent).or (w.refusal? (indent + indentStep)) with
      | some refusal => .error refusal
      | none =>
        match arguments tag (indent + indentStep) children with
        | .error e => .error e
        | .ok args => .ok (some (layout names indent tag strings codes args))

/-- The children of the element `parent` as arguments, at an indentation that is not refused. -/
def arguments (parent : Text) (indent : Int) : List Node → Except ε (List Text)
  | [] => .ok []
  | node :: rest =>
    match argument parent indent node with
    | .error e => .error e
    | .ok arg =>
      match arguments parent indent rest with
      | .error e => .error e
      | .ok args => .ok (arg.toList ++ args)

end

/-- The children of the element `parent` as arguments. -/
def childArguments (parent : Text) (indent : Int) (children : List Node) : Except ε (List Text) :=
  match w.refusal? indent with
  | some refusal => .error refusal
  | none => arguments w names parent indent children

/-- The call of an element. -/
def renderWith (indent : Int) (e : Element) : Except ε Text :=
  if e.tag.isEmpty then .error (w.fault .emptyTagName)
  else
    match w.refusal? indent with
    | some refusal => .error refusal
    | none =>
      match childArguments w names e.tag (indent + indentStep) e.children with
      | .error e => .error e
      | .ok args => .ok (layout names indent e.tag e.strings e.codes args)

end Write

/-- The call of an element at any indentation. -/
def render (names : Names) (indent : Int) (e : Element) : Except MarkupFault Text :=
  renderWith .free names indent e

/-! ## Indentations that are refused -/

/-- Why a call is not written. -/
inductive Refusal where
  /-- The element is at fault. -/
  | markup (fault : MarkupFault)
  /-- The indentation is not a number of 64 bits. -/
  | indentTooGreat
  /-- There is no room for the indentation. -/
  | noRoom
deriving DecidableEq, Repr

/-- Why an indentation is refused, if it is, where there is room for so many blanks. -/
def indentRefusal? (room : Nat) (indent : Int) : Option Refusal :=
  if indent < -Int.pow 2 63 ∨ Int.pow 2 63 ≤ indent then some .indentTooGreat
  else if room < indent then some .noRoom
  else none

/-- The writer that has room for so many blanks. -/
def Writer.within (room : Nat) : Writer Refusal := ⟨indentRefusal? room, .markup⟩

/-- The call of an element at an indentation, with room for so many blanks. -/
def renderAt (room : Nat) (names : Names) (indent : Int) (e : Element) : Except Refusal Text :=
  renderWith (.within room) names indent e

end InlineMarkup.Call
