import InlineMarkup.Expansion
import InlineMarkup.Proofs.Resolving
import InlineMarkup.Proofs.WellFormed

/-!
# What a call takes over from its markup

Generated text is scanned for regions again, so that the passes come to an end, or find nothing more
to do, has to be argued from what a call can hold.  The argument counts places in texts that end in
a `<`: the `<` themselves, or the openings of regions.  Both are tallies (`Tally`): a text without
`<` has no such place, and a place reaches over the end of a text only where markup follows.

Every `<` of a call stands in a quoted literal or in code that the markup holds too, since names
have none and running text has none.  So a tally of a call is at most that of the literals and the
code of the markup's tokens (`Tally.call_le`).  It is carried through the stages one by one: each
token is used at most once in an element (`Spells.total_le`), and a call repeats the values of an
element, between pieces that end in no opening and start with no markup (`Tally.render_le`).

For the count of `<` there is more to say.  Tokens are made of disjoint pieces of the text
(`marksIn_run_le`), and the `<` that opens the root element is in no literal and no code; so a call
has fewer `<` than its markup (`count_lt_of_ofMarkup`).
-/

namespace InlineMarkup

open Element

/-! ## 1. Tallies -/

/-- Counts places in texts, each of which ends in a `<` and starts with a `(` or with the `<`
itself; what stands between the two is blank. -/
structure Tally (μ : Text → Nat) : Prop where
  /-- Without `<` there is nothing to count. -/
  unmarked {t : Text} : '<' ∉ t → μ t = 0
  /-- No place reaches into a text that does not go on with markup. -/
  append {a b : Text} : Region.opensMarkup b = false → μ (a ++ b) = μ a + μ b
  /-- No place starts where there is neither `(` nor `<`. -/
  skip {a b : Text} : '(' ∉ a → '<' ∉ a → μ (a ++ b) = μ b
  /-- The places of a piece are places of the whole. -/
  piece {t u : Text} : t <:+: u → μ t ≤ μ u

theorem tally_count : Tally (List.count '<') where
  unmarked := List.count_eq_zero.mpr
  append _ := List.count_append
  skip _ hlt := by rw [List.count_append, List.count_eq_zero.mpr hlt, Nat.zero_add]
  piece h := h.sublist.count_le '<'

theorem opensMarkup_of_unmarked {t : Text} (h : '<' ∉ t) : Region.opensMarkup t = false := by
  unfold Region.opensMarkup
  split
  · rename_i c rest hdrop
    have hc : c ∈ t := (List.dropWhile_suffix _).subset (hdrop ▸ List.mem_cons_self)
    rw [beq_eq_false_iff_ne]
    rintro rfl
    exact h hc
  · rfl

/-- What is left of a code token without its braces is a piece of it. -/
theorem unbraced_piece (t : Text) : Text.unbraced t <:+: t := by
  have htrim : Text.trim t <:+: t := Text.trim_isInfix t
  unfold Text.unbraced
  dsimp only
  refine (Text.trim_isInfix _).trans ?_
  split
  · exact ((List.dropLast_prefix _).isInfix.trans (List.drop_suffix 1 _).isInfix).trans htrim
  · exact htrim

variable {μ : Text → Nat}

/-! ## 2. What tokens and elements hold -/

/-- Tokens of these kinds are taken over into calls as they are, but for the braces of code. -/
def Token.Kind.isVerbatim : Token.Kind → Bool
  | .string | .code => true
  | _ => false

/-- What `μ` counts in the literals and blocks among tokens. -/
def Token.total (μ : Text → Nat) (ts : List Token) : Nat :=
  ((ts.filter fun t => t.kind.isVerbatim).map fun t => μ t.lexeme).sum

@[simp] theorem Token.total_nil : Token.total μ [] = 0 := rfl

@[simp] theorem Token.total_cons (t : Token) (ts : List Token) :
    Token.total μ (t :: ts) = (if t.kind.isVerbatim then μ t.lexeme else 0) + Token.total μ ts := by
  cases h : t.kind.isVerbatim with
  | true => simp [Token.total, h]
  | false => simp [Token.total, h]

@[simp] theorem Token.total_append (ts us : List Token) :
    Token.total μ (ts ++ us) = Token.total μ ts + Token.total μ us := by
  simp [Token.total]

/-- What `μ` counts in the values of props. -/
def Props.total (μ : Text → Nat) (props : Props) : Nat := (props.map fun p => μ p.2).sum

@[simp] theorem Props.total_nil : Props.total μ [] = 0 := rfl

@[simp] theorem Props.total_cons (p : Text × Text) (props : Props) :
    Props.total μ (p :: props) = μ p.2 + Props.total μ props := by
  simp [Props.total]

theorem Props.total_append (ps qs : Props) :
    Props.total μ (ps ++ qs) = Props.total μ ps + Props.total μ qs := by
  simp [Props.total]

theorem Props.total_set_le (μ : Text → Nat) (name value : Text) : ∀ props : Props,
    Props.total μ (Props.set name value props) ≤ Props.total μ props + μ value
  | [] => by simp [Props.set, Props.total]
  | (n, v) :: props => by
    have ih := Props.total_set_le μ name value props
    rw [Props.set]
    split
    · simp only [Props.total_cons]
      omega
    · simp only [Props.total_cons]
      omega

mutual

/-- What `μ` counts in the code and the prop values of a child. -/
def Node.total (μ : Text → Nat) : Node → Nat
  | .text _ => 0
  | .code c => μ c
  | .element _ strings codes children =>
    Props.total μ strings + Props.total μ codes + Node.totals μ children
  | .unsupported _ => 0

/-- What `μ` counts in children. -/
def Node.totals (μ : Text → Nat) : List Node → Nat
  | [] => 0
  | node :: nodes => node.total μ + Node.totals μ nodes

end

namespace Element

/-- An attribute list uses the value of each token at most once. -/
theorem attributes_total_le (hμ : Tally μ) (strings codes : Props) (ts : List Token) :
    Props.total μ (attributes strings codes ts).1 + Props.total μ (attributes strings codes ts).2.1
      ≤ Props.total μ strings + Props.total μ codes + Token.total μ ts := by
  induction strings, codes, ts using attributes.induct with
  | case1 strings codes => rw [attributes]; simp
  | case2 strings codes l p rest => rw [attributes]; simp
  | case3 strings codes l p rest => rw [attributes]; simp
  | case4 strings codes name p value p' rest ih =>
    have hset := Props.total_set_le μ name value strings
    rw [attributes]
    simp only [Token.total_cons, Token.Kind.isVerbatim, if_true]
    omega
  | case5 strings codes name p value p' rest ih =>
    have hset := Props.total_set_le μ name (Text.unbraced value) codes
    have hvalue := hμ.piece (unbraced_piece value)
    rw [attributes]
    simp only [Token.total_cons, Token.Kind.isVerbatim, if_true]
    omega
  | case6 strings codes name p mark p' value p'' rest ih =>
    have hset := Props.total_set_le μ name value strings
    rw [attributes]
    simp only [Token.total_cons, Token.Kind.isVerbatim, if_true]
    omega
  | case7 strings codes name p mark p' value p'' rest ih =>
    have hset := Props.total_set_le μ name (Text.unbraced value) codes
    have hvalue := hμ.piece (unbraced_piece value)
    rw [attributes]
    simp only [Token.total_cons, Token.Kind.isVerbatim, if_true]
    omega
  | case8 strings codes t rest h₁ h₂ h₃ h₄ h₅ h₆ ih =>
    rw [attributes.eq_8 strings codes t rest h₁ h₂ h₃ h₄ h₅ h₆, Token.total_cons]
    omega

theorem SpellsStart.total_le (hμ : Tally μ) {head : List Token} {s : StartTag}
    (h : SpellsStart head s) :
    Props.total μ s.strings + Props.total μ s.codes ≤ Token.total μ head := by
  cases h with
  | @intro opening name stop inside isEmpty _ _ _ _ =>
    have hle := attributes_total_le hμ [] [] inside
    simp only [Props.total_nil, Nat.zero_add] at hle
    simp only [Token.total_cons, Token.total_append]
    omega

/-- **Children hold no more than the tokens that spell them.** -/
theorem SpellsContent.total_le (hμ : Tally μ) {ts : List Token} {nodes : List Node}
    (h : SpellsContent ts nodes) : Node.totals μ nodes ≤ Token.total μ ts := by
  induction h with
  | nil => exact Nat.le_refl _
  | text _ _ ih =>
    simp only [Node.totals, Node.total, Token.total_cons]
    omega
  | @code t _ _ hkind _ _ ih =>
    have hvalue := hμ.piece (unbraced_piece t.lexeme)
    simp only [Node.totals, Node.total, Token.total_cons, hkind, Token.Kind.isVerbatim, if_true]
    omega
  | emptyCode _ _ _ ih =>
    simp only [Token.total_cons]
    omega
  | passed _ _ ih =>
    simp only [Token.total_cons]
    omega
  | emptyElement hhead _ _ ih =>
    have hle := hhead.total_le hμ
    simp only [Node.totals, Node.total, Element.toNode, StartTag.element, Token.total_append]
    omega
  | element hhead _ _ _ _ ihin ih =>
    have hle := hhead.total_le hμ
    simp only [Node.totals, Node.total, Element.toNode, StartTag.element, Token.total_append]
    omega

/-- **An element holds no more than the tokens that spell it.** -/
theorem Spells.total_le (hμ : Tally μ) {ts : List Token} {e : Element} (h : Spells ts e) :
    e.toNode.total μ ≤ Token.total μ ts := by
  cases h with
  | empty hhead _ =>
    have hle := hhead.total_le hμ
    simpa [Node.total, Node.totals, Element.toNode, StartTag.element] using hle
  | full hhead _ hinner _ =>
    have hhead := hhead.total_le hμ
    have hinner := hinner.total_le hμ
    simp only [Node.total, Element.toNode, StartTag.element, Token.total_append]
    omega

end Element

/-! ## 3. Calls -/

/-- Names of calls that hold no `<`. -/
structure Names.Unmarked (names : Names) : Prop where
  factory : '<' ∉ names.factory
  createElement : '<' ∉ names.createElement
  createText : '<' ∉ names.createText

theorem Names.unmarked_default : ({} : Names).Unmarked := ⟨by decide, by decide, by decide⟩

theorem IsName.lt_notMem {t : Text} (h : IsName t) : '<' ∉ t := by
  obtain ⟨c, rest, rfl, hc, hrest⟩ := h
  intro hmem
  rcases List.mem_cons.mp hmem with rfl | hmem
  · exact absurd hc (by decide)
  · exact absurd (hrest '<' hmem) (by decide)

namespace Call

theorem lt_notMem_pascalCase {name : Text} (h : '<' ∉ name) : '<' ∉ pascalCase name := by
  intro hmem
  obtain ⟨part, hpart, hmem⟩ := List.mem_flatten.mp hmem
  obtain ⟨piece, hpiece, rfl⟩ := List.mem_map.mp hpart
  cases piece with
  | nil => exact absurd hmem List.not_mem_nil
  | cons c rest =>
    have hin : ∀ d ∈ c :: rest, d ∈ name := fun d hd => Text.mem_of_mem_splitAt hpiece hd
    rw [capitalized, List.mem_append] at hmem
    rcases hmem with hmem | hmem
    · have hc : c ≠ '<' := fun hc => h (hc ▸ hin c List.mem_cons_self)
      exact Text.lt_notMem_upperCase hc hmem
    · exact h (hin '<' (List.mem_cons_of_mem _ hmem))

theorem lt_notMem_propsType {tag : Text} (h : '<' ∉ tag) : '<' ∉ propsType tag := by
  unfold propsType
  split
  · simp [h]
  · simp [lt_notMem_pascalCase h]

theorem lt_notMem_tagArgument {tag : Text} (h : '<' ∉ tag) : '<' ∉ tagArgument tag := by
  unfold tagArgument
  split
  · simp [h]
  · exact h

theorem lt_notMem_substitute {c : Char} {replacement t : Text} (hreplacement : '<' ∉ replacement)
    (h : '<' ∉ t) : '<' ∉ substitute c replacement t := by
  intro hmem
  obtain ⟨d, hd, hmem⟩ := List.mem_flatMap.mp hmem
  split at hmem
  · exact hreplacement hmem
  · exact h (List.mem_singleton.mp hmem ▸ hd)

theorem lt_notMem_literal {t : Text} (h : '<' ∉ t) : '<' ∉ literal t := by
  have hescaped : '<' ∉ escaped t := by
    unfold escaped substitutions
    simp only [List.foldl_cons, List.foldl_nil]
    iterate 5 refine lt_notMem_substitute (by decide) ?_
    exact h
  simp [literal, hescaped]

theorem lt_notMem_textExpression {names : Names} (hnames : names.Unmarked) {t : Text}
    (h : '<' ∉ t) : '<' ∉ textExpression names t := by
  unfold textExpression
  split
  · simp [hnames.factory, hnames.createText, lt_notMem_literal h]
  · exact lt_notMem_literal h

theorem notMem_spaces {c : Char} (h : c ≠ ' ') (indent : Int) : c ∉ spaces indent := by
  simp [spaces, List.mem_replicate, h]

end Call

namespace Tally

open Call

/-- What separators put between texts adds nothing. -/
theorem joinWith (hμ : Tally μ) {separator : Text} (hopen : '(' ∉ separator)
    (hlt : '<' ∉ separator) (hstop : ∀ t, Region.opensMarkup (separator ++ t) = false) :
    ∀ ts : List Text, μ (Text.joinWith separator ts) = (ts.map μ).sum
  | [] => hμ.unmarked List.not_mem_nil
  | [t] => by simp [Text.joinWith]
  | t :: u :: ts => by
    have ih := hμ.joinWith hopen hlt hstop (u :: ts)
    rw [Text.joinWith, List.append_assoc, hμ.append (hstop _), hμ.skip hopen hlt, ih]
    · rfl
    · exact List.cons_ne_nil u ts

theorem propEntries (hμ : Tally μ) : ∀ {props : Props}, (∀ p ∈ props, IsName p.1) →
    ((props.map propEntry).map μ).sum = Props.total μ props
  | [], _ => rfl
  | p :: props, h => by
    have hname := lt_notMem_pascalCase (h p List.mem_cons_self).lt_notMem
    have hentry : μ (propEntry p) = μ p.2 := by
      rw [propEntry, List.append_assoc, hμ.append rfl, hμ.unmarked hname,
        hμ.skip (by decide) (by decide), Nat.zero_add]
    have hrest := hμ.propEntries fun q hq => h q (List.mem_cons_of_mem _ hq)
    rw [List.map_cons, List.map_cons, List.sum_cons, hrest, hentry, Props.total_cons]

variable {names : Names} {tag : Text} {strings codes : Props}

/-- What follows the props argument of a call is told apart from it by a brace. -/
theorem propsExpression (hμ : Tally μ) (htag : IsName tag) (hs : ∀ p ∈ strings, IsName p.1)
    (hc : ∀ p ∈ codes, IsName p.1) (rest : Text) :
    μ (Call.propsExpression tag strings codes ++ rest) =
      Props.total μ strings + Props.total μ codes + μ rest := by
  have htype : '<' ∉ "new ".toList ++ propsType tag := by
    simp [lt_notMem_propsType htag.lt_notMem]
  have hnames : ∀ p ∈ strings ++ codes, IsName p.1 :=
    fun p hp => (List.mem_append.mp hp).elim (hs p) (hc p)
  have hentries := hμ.propEntries hnames
  rw [Props.total_append] at hentries
  unfold Call.propsExpression
  split
  · rename_i hnil
    rw [hnil] at hentries
    rw [List.append_assoc, hμ.append rfl, hμ.unmarked htype, hμ.skip (by decide) (by decide),
      ← hentries]
    rfl
  · rw [List.append_assoc, List.append_assoc, List.append_assoc, hμ.append rfl, hμ.unmarked htype,
      hμ.skip (by decide) (by decide), hμ.append rfl,
      hμ.joinWith (by decide) (by decide) (fun _ => rfl), hentries, hμ.skip (by decide) (by decide),
      Nat.zero_add]

/-- **A call holds what the values of its props and its arguments hold**, and nothing where these
meet the rest of it. -/
theorem layout (hμ : Tally μ) (hnames : names.Unmarked) (htag : IsName tag)
    (hs : ∀ p ∈ strings, IsName p.1) (hc : ∀ p ∈ codes, IsName p.1) (indent : Int)
    (args : List Text) : μ (Call.layout names indent tag strings codes args) =
      Props.total μ strings + Props.total μ codes + (args.map μ).sum := by
  -- up to the tag there is no `<`, and the comma behind it ends whatever the tag's `(` might open
  have hfront : '<' ∉ spaces indent ++ (names.factory ++ ".".toList ++ names.createElement ++
      "(".toList ++ tagArgument tag) := by
    simp [notMem_spaces, hnames.factory, hnames.createElement, lt_notMem_tagArgument htag.lt_notMem]
  have hhead : ∀ rest : Text, μ (spaces indent ++ (head names tag strings codes ++ rest)) =
      Props.total μ strings + Props.total μ codes + μ rest := by
    intro rest
    rw [head, List.append_assoc, List.append_assoc, ← List.append_assoc, hμ.append rfl,
      hμ.unmarked hfront, hμ.skip (by decide) (by decide), hμ.propsExpression htag hs hc,
      Nat.zero_add]
  have hend : '<' ∉ "\n".toList ++ (spaces indent ++ ")".toList) := by
    simp [notMem_spaces]
  unfold Call.layout
  rw [List.append_assoc, List.append_assoc, hhead]
  split
  · rw [List.nil_append, hμ.unmarked (by decide)]
    rfl
  · rw [List.append_assoc, List.append_assoc, List.append_assoc, hμ.skip (by decide) (by decide),
      hμ.append (opensMarkup_of_unmarked hend), hμ.unmarked hend,
      hμ.joinWith (by decide) (by decide) (fun _ => rfl), Nat.add_zero]

mutual

/-- **An argument holds no more than the child it is written for.** -/
theorem argument_le (hμ : Tally μ) (hnames : names.Unmarked) (parent : Text) (indent : Int) :
    ∀ {node : Node} {arg : Option Text}, node.WellFormed →
      argument .free names parent indent node = .ok arg → (arg.toList.map μ).sum ≤ node.total μ
  | .text t, arg, hwf, h => by
    rw [Node.WellFormed] at hwf
    -- running text ends before a `<`, and its literal escapes nothing into one
    have hlt : '<' ∉ spaces indent ++ textExpression names t := by
      simp [notMem_spaces, lt_notMem_textExpression hnames hwf.noTag]
    rw [argument] at h
    rw [← Except.ok.inj h]
    simp [hμ.unmarked hlt]
  | .code c, arg, _, h => by
    rw [argument] at h
    rw [← Except.ok.inj h]
    split
    · exact Nat.zero_le _
    · rw [Option.toList_some, List.map_singleton, List.sum_singleton,
        hμ.skip (notMem_spaces (by decide) indent) (notMem_spaces (by decide) indent), Node.total]
  | .element tag strings codes children, arg, hwf, h => by
    rw [Node.WellFormed] at hwf
    obtain ⟨htag, hs, hc, hchildren⟩ := hwf
    rw [argument] at h
    split at h
    · cases h
    · dsimp only [Writer.free, Option.or] at h
      split at h
      · cases h
      · rename_i args hargs
        have hle := hμ.arguments_le hnames tag (indent + indentStep) hchildren hargs
        rw [← Except.ok.inj h, Node.total]
        simp only [Option.toList_some, List.map_cons, List.map_nil, List.sum_cons, List.sum_nil,
          hμ.layout hnames htag hs.names hc.names]
        omega

/-- **Arguments hold no more than the children they are written for.** -/
theorem arguments_le (hμ : Tally μ) (hnames : names.Unmarked) (parent : Text) (indent : Int) :
    ∀ {nodes : List Node} {args : List Text}, Node.AllWellFormed nodes →
      arguments .free names parent indent nodes = .ok args → (args.map μ).sum ≤ Node.totals μ nodes
  | [], args, _, h => by
    rw [arguments] at h
    rw [← Except.ok.inj h]
    exact Nat.zero_le _
  | node :: nodes, args, hwf, h => by
    rw [Node.AllWellFormed] at hwf
    rw [arguments] at h
    split at h
    · cases h
    · rename_i arg harg
      split at h
      · cases h
      · rename_i rest hrest
        have hone := hμ.argument_le hnames parent indent hwf.1 harg
        have hmore := hμ.arguments_le hnames parent indent hwf.2 hrest
        rw [← Except.ok.inj h, List.map_append, List.sum_append, Node.totals]
        omega

end

theorem render_le (hμ : Tally μ) (hnames : names.Unmarked) {indent : Int} {e : Element}
    {call : Text} (hwf : e.WellFormed) (h : render names indent e = .ok call) :
    μ call ≤ e.toNode.total μ := by
  rw [Element.WellFormed, Element.toNode, Node.WellFormed] at hwf
  obtain ⟨htag, hs, hc, hchildren⟩ := hwf
  unfold render renderWith at h
  split at h
  · cases h
  · dsimp only [Writer.free, childArguments] at h
    split at h
    · cases h
    · rename_i args hargs
      have hle := hμ.arguments_le hnames e.tag (indent + indentStep) hchildren hargs
      rw [← Except.ok.inj h, hμ.layout hnames htag hs.names hc.names, Element.toNode, Node.total]
      omega

end Tally

/-- A call is the call of the element that the markup says. -/
theorem Call.ofMarkup_eq_ok {names : Names} {markup call : Text}
    (h : ofMarkup names markup = .ok call) :
    ∃ e, Element.ofMarkup markup = .ok e ∧ render names 0 e = .ok call := by
  unfold ofMarkup at h
  split at h
  · cases h
  · rename_i ts hts
    split at h
    · cases h
    · rename_i e he
      split at h
      · cases h
      · rename_i g hg
        refine ⟨e, ?_, Except.ok.inj h ▸ hg⟩
        rw [Element.ofMarkup, bind_eq_ok]
        exact ⟨ts, hts, he⟩

theorem Call.ofText_of_ofMarkup {names : Names} {markup call : Text}
    (h : ofMarkup names markup = .ok call) :
    Token.ofText markup = .ok (Lexed.ofText markup).tokens := by
  obtain ⟨e, he, -⟩ := ofMarkup_eq_ok h
  exact Element.ofText_eq_ok_iff.mpr ⟨(Element.ofMarkup_eq_ok_iff.mp he).1, rfl⟩

/-- **A call holds no more than the literals and the code of its markup.** -/
theorem Tally.call_le (hμ : Tally μ) {names : Names} (hnames : names.Unmarked)
    {markup call : Text} (h : Call.ofMarkup names markup = .ok call) :
    μ call ≤ Token.total μ (Lexed.ofText markup).tokens := by
  obtain ⟨e, he, hrender⟩ := Call.ofMarkup_eq_ok h
  have hspells := (Element.ofMarkup_eq_ok_iff.mp he).2
  exact (hμ.render_le hnames (wellFormed_of_ofMarkup he) hrender).trans (hspells.total_le hμ)

/-! ## 4. The `<` of a call -/

/-- The number of `<` in tokens. -/
def Token.marksIn (ts : List Token) : Nat := (ts.map fun t => t.lexeme.count '<').sum

open Token (marksIn)

@[simp] theorem Token.marksIn_nil : marksIn [] = 0 := rfl

@[simp] theorem Token.marksIn_cons (t : Token) (ts : List Token) :
    marksIn (t :: ts) = t.lexeme.count '<' + marksIn ts := by
  simp [marksIn]

@[simp] theorem Token.marksIn_append (ts us : List Token) :
    marksIn (ts ++ us) = marksIn ts + marksIn us := by
  simp [marksIn]

theorem Token.total_count_le (ts : List Token) :
    Token.total (List.count '<') ts ≤ marksIn ts := by
  induction ts with
  | nil => exact Nat.le_refl _
  | cons t ts ih =>
    rw [Token.total_cons, Token.marksIn_cons]
    split
    · omega
    · omega

/-- **The tokens of a reading hold no more `<` than the text.** -/
theorem Lexer.marksIn_run_le (i : Nat) (m : Mode) (t : Text) :
    marksIn (run i m t).tokens ≤ t.count '<' := by
  induction i, m, t using run.induct with
  | case1 i m =>
    rw [run_nil]
    exact Nat.zero_le _
  | case2 i m c t fault h =>
    rw [run_of_error h]
    exact Nat.zero_le _
  | case3 i m c t s h ih =>
    obtain ⟨w, rest, rfl, hextra, htakes⟩ := step_takes h
    have hpiece : marksIn (placed i s.token) ≤ (c :: w).count '<' := by
      cases htoken : s.token with
      | none => exact Nat.zero_le _
      | some token =>
        rw [htoken] at htakes
        have hle := htakes.admits.2.count_le '<'
        simpa [placed] using hle
    rw [hextra, List.drop_left] at ih
    rw [(run_of_step h i).1, hextra, List.drop_left, Token.marksIn_append, ← List.cons_append,
      List.count_append]
    omega

/-- The `<` that opens an element is in no literal and no code. -/
theorem Element.Spells.total_lt_marksIn {ts : List Token} {e : Element} (h : Spells ts e)
    (ht : ∀ t ∈ ts, t.IsFormed) : Token.total (List.count '<') ts < marksIn ts := by
  obtain ⟨t, rest, rfl, hkind⟩ := h.exists_cons
  have hform : t.IsFormed := ht t List.mem_cons_self
  rw [Token.IsFormed, hkind] at hform
  have hcount : t.lexeme.count '<' = 1 := by
    rw [show t.lexeme = ['<'] from hform]
    rfl
  have hrest := Token.total_count_le rest
  rw [Token.total_cons, Token.marksIn_cons, hcount, if_neg (by simp [hkind, Token.Kind.isVerbatim])]
  omega

/-- **Every call has fewer `<` than the markup it is written for.** -/
theorem Call.count_lt_of_ofMarkup {names : Names} (hnames : names.Unmarked) {markup call : Text}
    (h : ofMarkup names markup = .ok call) : call.count '<' < markup.count '<' := by
  obtain ⟨e, he, -⟩ := ofMarkup_eq_ok h
  have hspells := (Element.ofMarkup_eq_ok_iff.mp he).2
  calc call.count '<'
      ≤ Token.total (List.count '<') (Lexed.ofText markup).tokens := tally_count.call_le hnames h
    _ < marksIn (Lexed.ofText markup).tokens :=
        hspells.total_lt_marksIn (Lexer.run_formed 0 {} markup)
    _ ≤ markup.count '<' := Lexer.marksIn_run_le 0 {} markup

end InlineMarkup
