import InlineMarkup.Call.Render
import InlineMarkup.Region
import InlineMarkup.Token.Lexer

/-!
# Expanding the markup in a text

A pass looks for the regions of a text, writes the call for each of them, and puts the calls in
the regions' places; a region whose markup is at fault stays as it is.  Code and literals in a
region may hold regions of their own, which the next pass finds, so passes go on until one finds
no region or expands none.

A region at fault is met again in every later pass.  It is reported once for each place where
its expression occurs: within a pass a failing expression is new only when it has failed more
often in this pass than it has been reported before.

Nothing bounds the number of passes.  They end when the names used in calls hold no `<`, for then
every expansion removes one; a name that holds a region of its own can keep them going for ever, and
then there is no outcome.
-/

namespace InlineMarkup

/-- The call that the markup of a region stands for. -/
def Call.ofMarkup (names : Names) (markup : Text) : Except MarkupError Text :=
  match Token.ofText markup with
  | .error e => .error e
  | .ok tokens =>
    match Element.ofTokens tokens with
    | .error e => .error e
    | .ok root =>
      match Call.render names 0 root with
      | .error fault => .error ⟨fault, none⟩
      | .ok call => .ok call

/-- What became of one region: the call in its place, or why it was left as it is. -/
structure Expansion where
  expression : Text
  generated : Option Text := none
  error : Option Text := none
deriving DecidableEq, Repr, Inhabited

/-- The region was expanded. -/
def Expansion.succeeded (e : Expansion) : Bool := e.error.isNone

/-- What happens on the way to an expanded text. -/
inductive Expansion.Note where
  /-- An opening parenthesis before markup is not balanced. -/
  | unbalanced (offset : Nat)
  /-- A character in an attribute list was dropped. -/
  | stray (c : Char) (offset : Nat)
  /-- A region was left as it is. -/
  | failed (expression message : Text)
  /-- A pass has ended. -/
  | pass (number found expanded : Nat)
deriving DecidableEq, Repr

/-- A text and what has been done to it so far. -/
structure Expanded where
  text : Text
  expansions : List Expansion := []
  passes : Nat := 0
  /-- The failing expressions reported, once for each report. -/
  reported : List Text := []
  log : List Expansion.Note := []
deriving DecidableEq, Repr

namespace Expanded

/-- The expansions that put a call in place. -/
def succeeded (r : Expanded) : List Expansion := r.expansions.filter Expansion.succeeded

/-- The expansions that failed. -/
def failed (r : Expanded) : List Expansion := r.expansions.filter fun e => !e.succeeded

end Expanded

namespace Expansion

/-! ## 1. One pass -/

/-- A region and the outcome of writing its call. -/
structure Attempt where
  region : Region
  outcome : Except MarkupError Text

/-- Regions in the order of their places; regions at one place keep their order. -/
def inOrder (regions : List Region) : List Region :=
  regions.mergeSort fun a b => decide (a.start ≤ b.start)

/-- Tries every region, in the order of their places. -/
def attempts (names : Names) (regions : List Region) : List Attempt :=
  (inOrder regions).map fun r => ⟨r, Call.ofMarkup names r.content⟩

/-- The regions to be replaced and their calls. -/
def replacements (tried : List Attempt) : List (Region × Text) :=
  tried.filterMap fun a =>
    match a.outcome with
    | .ok call => some (a.region, call)
    | .error _ => none

/-- Puts the calls in the places of their regions one after the other.  `shift` is by how much the
text at a region has moved through the replacements before it. -/
def splice (t : Text) (shift : Int) : List (Region × Text) → Text
  | [] => t
  | (r, call) :: rest =>
    let start := r.start + shift
    let stop := r.stop + shift + 1
    splice (Text.before t start ++ call ++ Text.after t stop)
      (shift + (call.length - (stop - start))) rest

/-- Puts the calls in the places of their regions. -/
def replaceAll (t : Text) (calls : List (Region × Text)) : Text := splice t 0 calls

/-- The characters dropped from the markup of a region. -/
def strays (r : Region) : List Note :=
  (Lexed.ofText r.content).strays.map fun s => .stray s.1 s.2

/-- Adds the outcomes of a pass to what is known.  `failing` holds the expressions that have
failed earlier in the pass. -/
def record (failing : List Text) (r : Expanded) : List Attempt → Expanded
  | [] => r
  | a :: rest =>
    let expression := a.region.expression
    let r := { r with log := r.log ++ strays a.region }
    match a.outcome with
    | .ok call =>
      record failing
        { r with expansions := r.expansions ++ [{ expression, generated := some call }] } rest
    | .error e =>
      let failing := expression :: failing
      if r.reported.count expression < failing.count expression then
        record failing
          { r with
            expansions := r.expansions ++ [{ expression, error := some e.message }]
            reported := expression :: r.reported
            log := r.log ++ [.failed expression e.message] } rest
      else record failing r rest

/-- The unbalanced openings among findings. -/
def skipped (found : List Finding) : List Note :=
  found.filterMap fun
    | .unbalanced offset => some (.unbalanced offset)
    | .region _ => none

/-- One pass over findings of the text; tells whether there is a reason for another. -/
def pass (names : Names) (found : List Finding) (r : Expanded) : Expanded × Bool :=
  let r := { r with log := r.log ++ skipped found }
  match found.filterMap Finding.region? with
  | [] => (r, false)
  | regions =>
    let tried := attempts names regions
    let calls := replacements tried
    let number := r.passes + 1
    let r := record [] { r with passes := number } tried
    let r := { r with log := r.log ++ [.pass number regions.length calls.length] }
    match calls with
    | [] => (r, false)
    | calls => ({ r with text := replaceAll r.text calls }, true)

end Expansion

/-! ## 2. All passes -/

/-- Passes until one gives no reason for another.  The first goes by what is `found`, each later
one by what it finds in the text.  There is no outcome when there always is a reason. -/
def Expanded.finish (names : Names) (found : List Finding) (r : Expanded) : Option Expanded :=
  match Expansion.pass names found r with
  | (r, true) => r |>.finish names (Finding.scan r.text)
  | (r, false) => some r
partial_fixpoint

/-- The outcome of all passes over a text, the first of which goes by what is `found`.  Where they
never end, the text as it is stands for an outcome. -/
def Expansion.complete (names : Names) (t : Text) (found : List Finding) : Expanded :=
  (Expanded.finish names found { text := t }).getD { text := t }

/-- Expands every region of a text. -/
def expand (names : Names) (t : Text) : Expanded :=
  Expansion.complete names t (Finding.scan t)

/-- Expands a text whose regions are given for the first pass. -/
def expandGiven (names : Names) (t : Text) (regions : List Region) : Expanded :=
  Expansion.complete names t (regions.map .region)

end InlineMarkup
