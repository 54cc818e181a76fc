import Mathlib.Tactic.Ring
import InlineMarkup.Call.Render
import InlineMarkup.Proofs.Resolving

/-!
# The lines of a call

A call is written at an indentation, and the calls within it further in.  What is on its lines has
nothing to do with that: an element is a list of lines, each with a depth (`nodeLines`), and writing
its call at an indentation puts the lines one under the other, each as far in as the indentation and
its depth say (`render_eq`).  A negative indentation is none, so lines that are not deep enough to
come out of it start at the margin.

The commas between arguments are at the ends of lines, and not between them.  An argument of several
lines has its comma after the last of them (`withComma`), and an argument that is left out has no
line and so no comma.

Whether there is a call at all is a matter of the element and of the indentations that are refused
(`nodeRefusal?`), and never of names.  Where none is refused it is a matter of the element alone
(`callFault?`); and an indentation is refused if it is no number of 64 bits, even below all of them
(`indent_refused_below`), or if there is no room for it.
-/

namespace InlineMarkup

namespace Call

/-! ## 1. Lines -/

/-- A line of a call: by how many steps it stands further in than the call, and what is on it.  Code
may hold line ends; what it brings stays together. -/
structure Line where
  depth : Nat
  piece : Text
deriving DecidableEq, Repr

namespace Line

/-- The line as it is in a call at an indentation. -/
def shown (indent : Int) (line : Line) : Text :=
  spaces (indent + indentStep * line.depth) ++ line.piece

/-- Lines one under the other. -/
def joined (indent : Int) (lines : List Line) : Text :=
  Text.joinWith "\n" (lines.map (shown indent))

/-- The lines with a comma at the end of the last. -/
def withComma : List Line → List Line
  | [] => []
  | [line] => [{ line with piece := line.piece ++ "," }]
  | line :: rest => line :: withComma rest

/-- The lines of several arguments: a comma ends each argument but the last. -/
def separated : List (List Line) → List Line
  | [] => []
  | [lines] => lines
  | lines :: rest => withComma lines ++ separated rest

/-- The lines of a call: a single one if there are no further arguments, and otherwise its head, the
lines of the arguments and a closing parenthesis. -/
def enclosed (depth : Nat) (head : Text) (arguments : List (List Line)) : List Line :=
  if arguments = [] then [⟨depth, head ++ ")"⟩]
  else ⟨depth, head ++ ","⟩ :: (separated arguments ++ [⟨depth, ")"⟩])

variable {indent : Int} {line : Line} {lines others : List Line}

@[simp] theorem joined_singleton : joined indent [line] = shown indent line := rfl

theorem joined_append (h : lines ≠ []) (hothers : others ≠ []) :
    joined indent (lines ++ others) = joined indent lines ++ ("\n" ++ joined indent others) := by
  rw [joined, List.map_append,
    Text.joinWith_append "\n" (by simpa using hothers) (by simpa using h)]
  rfl

theorem joined_cons (h : lines ≠ []) :
    joined indent (line :: lines) = shown indent line ++ ("\n" ++ joined indent lines) :=
  joined_append (List.cons_ne_nil line []) h

theorem withComma_ne_nil : ∀ {lines : List Line}, lines ≠ [] → withComma lines ≠ []
  | [], h => h
  | [_], _ => List.cons_ne_nil _ _
  | _ :: _ :: _, _ => List.cons_ne_nil _ _

/-- The comma comes after all that the lines say. -/
theorem joined_withComma : ∀ {lines : List Line}, lines ≠ [] →
    joined indent (withComma lines) = joined indent lines ++ ","
  | [], h => absurd rfl h
  | [line], _ => by simp [withComma, shown]
  | line :: line' :: rest, _ => by
    have hne := List.cons_ne_nil line' rest
    have hstep : withComma (line :: line' :: rest) = line :: withComma (line' :: rest) := rfl
    rw [hstep, joined_cons (withComma_ne_nil hne), joined_cons hne, joined_withComma hne]
    simp

theorem separated_ne_nil : ∀ {arguments : List (List Line)}, arguments ≠ [] →
    (∀ lines ∈ arguments, lines ≠ []) → separated arguments ≠ []
  | [], h, _ => absurd rfl h
  | [lines], _, h => h lines List.mem_cons_self
  | lines :: _ :: _, _, h => by
    have hne := withComma_ne_nil (h lines List.mem_cons_self)
    simp [separated, hne]

/-- **Commas at the ends of lines are commas between arguments.** -/
theorem joined_separated : ∀ {arguments : List (List Line)}, (∀ lines ∈ arguments, lines ≠ []) →
    joined indent (separated arguments) = Text.joinWith ",\n" (arguments.map (joined indent))
  | [], _ => rfl
  | [_], _ => rfl
  | lines :: lines' :: rest, h => by
    have hne := h lines List.mem_cons_self
    have hrest : ∀ others ∈ lines' :: rest, others ≠ [] :=
      fun others hmem => h others (List.mem_cons_of_mem lines hmem)
    have hstep : separated (lines :: lines' :: rest) =
        withComma lines ++ separated (lines' :: rest) := rfl
    rw [hstep, joined_append (withComma_ne_nil hne)
      (separated_ne_nil (List.cons_ne_nil lines' rest) hrest), joined_withComma hne,
      joined_separated hrest]
    simp [Text.joinWith]

theorem enclosed_ne_nil (depth : Nat) (head : Text) (arguments : List (List Line)) :
    enclosed depth head arguments ≠ [] := by
  unfold enclosed
  split <;> simp

end Line

open Line

/-- **A call is its lines, whatever they are indented by.** -/
theorem layout_eq_joined (names : Names) (indent : Int) (depth : Nat) (tag : Text)
    (strings codes : Props) {arguments : List (List Line)} (h : ∀ lines ∈ arguments, lines ≠ []) :
    layout names (indent + indentStep * depth) tag strings codes (arguments.map (joined indent)) =
      joined indent (enclosed depth (head names tag strings codes) arguments) := by
  unfold layout enclosed
  cases arguments with
  | nil => simp [shown]
  | cons lines rest =>
    have hne := separated_ne_nil (List.cons_ne_nil lines rest) h
    rw [if_neg (List.cons_ne_nil lines rest), joined_cons (by simp),
      joined_append hne (List.cons_ne_nil _ []), joined_separated h]
    simp [shown]

/-! ## 2. Elements as lines -/

/-- The child is written as an argument: it is not code that is still in braces. -/
def isArgument : Node → Bool
  | .code source => !isPlaceholder source
  | _ => true

mutual

/-- The lines of a child at a depth. -/
def nodeLines (names : Names) (depth : Nat) : Node → List Line
  | .text t => [⟨depth, textExpression names t⟩]
  | .code source => [⟨depth, source⟩]
  | .unsupported _ => []
  | .element tag strings codes children =>
    enclosed depth (head names tag strings codes) (childLines names (depth + 1) children)

/-- The lines of each of the children that are written. -/
def childLines (names : Names) (depth : Nat) : List Node → List (List Line)
  | [] => []
  | node :: rest =>
    if isArgument node then nodeLines names depth node :: childLines names depth rest
    else childLines names depth rest

end

theorem childLines_eq (names : Names) (depth : Nat) : ∀ children : List Node,
    childLines names depth children = (children.filter isArgument).map (nodeLines names depth)
  | [] => by rw [childLines]; rfl
  | node :: rest => by
    rw [childLines, childLines_eq names depth rest]
    by_cases h : isArgument node = true
    · rw [if_pos h, List.filter_cons_of_pos h, List.map_cons]
    · rw [if_neg h, List.filter_cons_of_neg h]

mutual

/-- Why a child of the element `parent` cannot be written, if it cannot. -/
def nodeFault? (parent : Text) : Node → Option MarkupFault
  | .text _ | .code _ => none
  | .unsupported kind => some (.unsupportedChild kind parent)
  | .element tag _ _ children =>
    if tag.isEmpty then some .emptyTagName else childFault? tag children

/-- Why the first of the children that cannot be written cannot. -/
def childFault? (parent : Text) : List Node → Option MarkupFault
  | [] => none
  | node :: rest => (nodeFault? parent node).or (childFault? parent rest)

end

/-- Why an element has no call, if it has none. -/
def callFault? (e : Element) : Option MarkupFault := nodeFault? [] e.toNode

section Refusals

variable {ε : Type} (w : Writer ε)

mutual

/-- Why a child of the element `parent` is not written at an indentation, if it is not. -/
def nodeRefusal? (parent : Text) (indent : Int) : Node → Option ε
  | .text _ | .code _ => none
  | .unsupported kind => some (w.fault (.unsupportedChild kind parent))
  | .element tag _ _ children =>
    if tag.isEmpty then some (w.fault .emptyTagName)
    else ((w.refusal? indent).or (w.refusal? (indent + indentStep))).or
      (childRefusal? tag (indent + indentStep) children)

/-- Why the first of the children that are not written is not. -/
def childRefusal? (parent : Text) (indent : Int) : List Node → Option ε
  | [] => none
  | node :: rest => (nodeRefusal? parent indent node).or (childRefusal? parent indent rest)

end

/-- Why an element has no call at an indentation, if it has none. -/
def callRefusal? (indent : Int) (e : Element) : Option ε := nodeRefusal? w [] indent e.toNode

end Refusals

mutual

/-- How many steps further in than a child something of it is written, or would be. -/
def steps : Node → Nat
  | .element _ _ _ children => childSteps children + 1
  | _ => 0

/-- The same for all the children of an element. -/
def childSteps : List Node → Nat
  | [] => 0
  | node :: rest => max (steps node) (childSteps rest)

end

section Write

variable {ε : Type} (w : Writer ε) (names : Names)

theorem childLines_ne_nil (depth : Nat) {children : List Node} {parent : Text} {indent : Int}
    (h : childRefusal? w parent indent children = none) :
    ∀ lines ∈ childLines names depth children, lines ≠ [] := by
  intro lines hmem
  rw [childLines_eq, List.mem_map] at hmem
  obtain ⟨node, hnode, rfl⟩ := hmem
  have hnone : nodeRefusal? w parent indent node = none := by
    have hin := (List.mem_filter.mp hnode).1
    clear hnode
    induction children with
    | nil => cases hin
    | cons first rest ih =>
      rw [childRefusal?, Option.or_eq_none_iff] at h
      rcases List.mem_cons.mp hin with rfl | hin
      · exact h.1
      · exact ih h.2 hin
  cases node with
  | text t => rw [nodeLines]; exact List.cons_ne_nil _ _
  | code source => rw [nodeLines]; exact List.cons_ne_nil _ _
  | unsupported kind => rw [nodeRefusal?] at hnone; cases hnone
  | element tag strings codes children => rw [nodeLines]; exact enclosed_ne_nil _ _ _

/-! ## 3. Writing -/

mutual

/-- **A child is written as its lines, unless it is at fault or an indentation is refused.** -/
theorem argument_eq (indent : Int) (parent : Text) (depth : Nat) : ∀ node : Node,
    argument w names parent (indent + indentStep * depth) node =
      (nodeRefusal? w parent (indent + indentStep * depth) node).elim
        (.ok (if isArgument node then some (joined indent (nodeLines names depth node)) else none))
        Except.error
  | .text t => by
    rw [argument, nodeRefusal?, nodeLines]
    rfl
  | .code source => by
    rw [argument, nodeRefusal?, nodeLines]
    cases h : isPlaceholder source <;> simp [isArgument, h, shown]
  | .unsupported kind => by
    rw [argument, nodeRefusal?]
    rfl
  | .element tag strings codes children => by
    have hdepth : indent + indentStep * depth + indentStep =
        indent + indentStep * (depth + 1 : Nat) := by
      push_cast
      ring
    rw [argument, nodeRefusal?, nodeLines]
    by_cases htag : tag.isEmpty = true
    · rw [if_pos htag, if_pos htag]
      rfl
    · rw [if_neg htag, if_neg htag, hdepth, arguments_eq indent tag (depth + 1) children]
      generalize (w.refusal? (indent + indentStep * depth)).or
        (w.refusal? (indent + indentStep * (depth + 1 : Nat))) = refusal
      cases refusal with
      | some refusal => rfl
      | none =>
        rw [Option.none_or]
        cases hrefusal : childRefusal? w tag (indent + indentStep * (depth + 1 : Nat)) children with
        | some refusal => rfl
        | none =>
          have hlayout := layout_eq_joined names indent depth tag strings codes
            (childLines_ne_nil w names (depth + 1) hrefusal)
          simp [isArgument, hlayout]

/-- **The children are written as their lines, unless one of them is not.** -/
theorem arguments_eq (indent : Int) (parent : Text) (depth : Nat) : ∀ children : List Node,
    arguments w names parent (indent + indentStep * depth) children =
      (childRefusal? w parent (indent + indentStep * depth) children).elim
        (.ok ((childLines names depth children).map (joined indent))) Except.error
  | [] => by
    rw [arguments, childRefusal?, childLines]
    rfl
  | node :: rest => by
    rw [arguments, childRefusal?, childLines, argument_eq indent parent depth node,
      arguments_eq indent parent depth rest]
    cases nodeRefusal? w parent (indent + indentStep * depth) node with
    | some refusal => rfl
    | none =>
      cases childRefusal? w parent (indent + indentStep * depth) rest with
      | some refusal => rfl
      | none => cases isArgument node <;> rfl

end

theorem argument_toNode (parent : Text) (indent : Int) (e : Element) :
    argument w names parent indent e.toNode = (renderWith w names indent e).map some := by
  rw [Element.toNode, argument, renderWith, childArguments]
  split
  · rfl
  · cases w.refusal? indent with
    | some refusal => rfl
    | none =>
      cases w.refusal? (indent + indentStep) with
      | some refusal => rfl
      | none =>
        dsimp only [Option.or]
        split <;> rfl

/-- **A call is the lines of its element, at any indentation.** -/
theorem renderWith_eq (indent : Int) (e : Element) :
    renderWith w names indent e =
      (callRefusal? w indent e).elim (.ok (joined indent (nodeLines names 0 e.toNode)))
        Except.error := by
  have hindent : indent + indentStep * (0 : Nat) = indent := by simp
  have hargument := argument_eq w names indent [] 0 e.toNode
  rw [hindent, argument_toNode] at hargument
  unfold callRefusal?
  cases hrefusal : nodeRefusal? w [] indent e.toNode with
  | some refusal =>
    rw [hrefusal] at hargument
    cases hrender : renderWith w names indent e with
    | ok t => rw [hrender] at hargument; cases hargument
    | error refusal' => rw [hrender] at hargument; cases hargument; rfl
  | none =>
    rw [hrefusal] at hargument
    cases hrender : renderWith w names indent e with
    | ok t => rw [hrender] at hargument; cases hargument; rfl
    | error refusal => rw [hrender] at hargument; cases hargument

end Write

section Granted

variable {ε : Type} {w : Writer ε}

/-- The indentations of a child that is written, and all those of what is in it, are not refused. -/
def Granted (w : Writer ε) (indent : Int) (steps : Nat) : Prop :=
  ∀ k ≤ steps, w.refusal? (indent + indentStep * k) = none

theorem Granted.mono {indent : Int} {m n : Nat} (h : Granted w indent n) (hle : m ≤ n) :
    Granted w indent m := fun k hk => h k (hk.trans hle)

theorem Granted.step {indent : Int} {n : Nat} (h : Granted w indent (n + 1)) :
    Granted w (indent + indentStep) n := by
  intro k hk
  have hnext := h (k + 1) (Nat.succ_le_succ hk)
  rwa [show indent + indentStep * (k + 1 : Nat) = indent + indentStep + indentStep * k by
    push_cast; ring] at hnext

mutual

/-- **Where no indentation is refused, only the markup can be at fault.** -/
theorem nodeRefusal?_of_granted (parent : Text) {indent : Int} : ∀ {node : Node},
    Granted w indent (steps node) →
      nodeRefusal? w parent indent node = (nodeFault? parent node).map w.fault
  | .text t, _ => by rw [nodeRefusal?, nodeFault?]; rfl
  | .code source, _ => by rw [nodeRefusal?, nodeFault?]; rfl
  | .unsupported kind, _ => by rw [nodeRefusal?, nodeFault?]; rfl
  | .element tag strings codes children, h => by
    rw [steps] at h
    have hhere : w.refusal? indent = none := by simpa using h 0 (Nat.zero_le _)
    have hnext : w.refusal? (indent + indentStep) = none := by simpa using h.step 0 (Nat.zero_le _)
    rw [nodeRefusal?, nodeFault?, hhere, hnext, childRefusal?_of_granted tag h.step]
    split <;> rfl

theorem childRefusal?_of_granted (parent : Text) {indent : Int} : ∀ {children : List Node},
    Granted w indent (childSteps children) →
      childRefusal? w parent indent children = (childFault? parent children).map w.fault
  | [], _ => by rw [childRefusal?, childFault?]; rfl
  | node :: rest, h => by
    rw [childSteps] at h
    rw [childRefusal?, childFault?, nodeRefusal?_of_granted parent (h.mono (le_max_left _ _)),
      childRefusal?_of_granted parent (h.mono (le_max_right _ _)), Option.map_or]

end

/-- An indentation that is refused at the start is all that is told, unless there is no name. -/
theorem callRefusal?_of_refused {indent : Int} {refusal : ε} (e : Element)
    (h : w.refusal? indent = some refusal) :
    callRefusal? w indent e = some (if e.tag.isEmpty then w.fault .emptyTagName else refusal) := by
  rw [callRefusal?, Element.toNode, nodeRefusal?, h]
  split <;> rfl

end Granted

theorem isArgument_eq_false_iff {node : Node} : isArgument node = false ↔
    ∃ source, node = .code source ∧ Text.startsWith (Text.trim source) ['{'] = true ∧
      Text.endsWith (Text.trim source) ['}'] = true := by
  cases node with
  | code source => simp [isArgument, isPlaceholder, Text.isBraced]
  | text t => simp [isArgument]
  | unsupported kind => simp [isArgument]
  | element tag strings codes children => simp [isArgument]

/-- **The layout of a call does not depend on where the call stands.**  The lines of a call are
those of its element, whatever the indentation and the room, and whether there is one does not
depend on names.  A call without further arguments is one line; otherwise each argument stands one
step further in, in the order of the children, and the parenthesis that closes the call is below the
start of it.  Only braced code is not an argument.  If all indentations are granted, whether there
is a call is known from the element alone; if the first is refused, there is none. -/
theorem layout_independent (e : Element) :
    (∀ (room : Nat) (names : Names) (indent : Int),
      renderAt room names indent e =
        (callRefusal? (.within room) indent e).elim
          (.ok (joined indent (nodeLines names 0 e.toNode))) Except.error) ∧
    (∀ (names : Names) (depth : Nat) (tag : Text) (strings codes : Props) (children : List Node),
      nodeLines names depth (.element tag strings codes children) =
        if children.filter isArgument = [] then [⟨depth, head names tag strings codes ++ ")"⟩]
        else ⟨depth, head names tag strings codes ++ ","⟩ ::
          (separated ((children.filter isArgument).map (nodeLines names (depth + 1))) ++
            [⟨depth, ")"⟩])) ∧
    (∀ node, isArgument node = false ↔ ∃ source, node = .code source ∧
      Text.startsWith (Text.trim source) ['{'] = true ∧
        Text.endsWith (Text.trim source) ['}'] = true) ∧
    ∀ (room : Nat) (indent : Int),
      ((∀ k ≤ steps e.toNode, indentRefusal? room (indent + indentStep * k) = none) →
        callRefusal? (.within room) indent e = (callFault? e).map .markup) ∧
      ∀ refusal, indentRefusal? room indent = some refusal →
        callRefusal? (.within room) indent e =
          some (if e.tag.isEmpty then .markup .emptyTagName else refusal) := by
  refine ⟨fun room names indent => renderWith_eq _ names indent e,
    fun names depth tag strings codes children => ?_, fun node => isArgument_eq_false_iff,
    fun room indent => ⟨fun h => ?_, fun refusal h => callRefusal?_of_refused e h⟩⟩
  · rw [nodeLines, childLines_eq, enclosed]
    simp only [List.map_eq_nil_iff]
  · exact nodeRefusal?_of_granted [] h

/-- An element with two children that are written, and one that is not. -/
def mixed : Element where
  tag := "p"
  children := [.code " \x7bx\x7d", .element "B" [] [] [.text "hi"], .code "y"]

theorem layout_independent_mixed :
    renderAt 6 {} (-2) mixed =
      .ok (String.toList ("Document.CreateElement(\"p\", new HtmlPProps \x7b \x7d,\n" ++
        "  Document.CreateElement(B, new BProps \x7b \x7d,\n      \"hi\"\n  ),\n  y\n)")) ∧
    renderAt 5 {} (-2) mixed = .error .noRoom ∧ renderAt 5 {} 6 mixed = .error .noRoom := by
  obtain ⟨hlines, -, -, hrefusal⟩ := layout_independent mixed
  refine ⟨?_, ?_, ?_⟩
  · rw [hlines, (hrefusal 6 (-2)).1 (by decide)]
    decide +kernel
  · rw [hlines]
    decide +kernel
  · rw [hlines, (hrefusal 5 6).2 .noRoom (by decide)]
    rfl

/-- Below the numbers of 64 bits an indentation is not none, but is refused. -/
theorem indent_refused_below :
    renderAt 0 {} (-9223372036854775809) { tag := "a" } = .error .indentTooGreat ∧
      ∃ t, renderAt 0 {} (-9223372036854775808) { tag := "a" } = .ok t :=
  ⟨by decide +kernel, "Document.CreateElement(\"a\", new HtmlAProps \x7b \x7d)", by decide +kernel⟩

end Call

end InlineMarkup
