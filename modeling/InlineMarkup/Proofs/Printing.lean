import InlineMarkup.Proofs.WellFormed

/-!
# Printing elements as markup

`Element.print` writes an element as markup: props as `name=value` after the name of the tag,
first those with a literal, then those with code, and children in their order between the two
tags.  Two texts side by side would be read as one, so an empty block `{}` stands between them;
it is read as no child at all.

On well-formed elements the reading undoes the printing (`ofMarkup_print`), and what was read is
well-formed, so markup that is read, printed and read again gives the element of the first
reading.

The proof goes piece by piece.  A printed piece is read as tokens (`Lexer.Reads`) that spell what
was printed; pieces compose, and the one thing that a piece asks of what follows it is that a text
is followed by the start of a tag or of a block (`StopsText`).
-/

namespace InlineMarkup

open Literal Lexer

/-! ## 1. The printer -/

/-- Code in braces. -/
def Text.braced (t : Text) : Text := '{' :: (t ++ ['}'])

/-- Props as attributes, with their values in the form that `shown` gives them. -/
def Props.print (shown : Text → Text) (props : Props) : Text :=
  props.flatMap fun p => ' ' :: (p.1 ++ '=' :: shown p.2)

/-- What stands between a child and the children after it. -/
def Node.gap : Node → List Node → Text
  | .text _, .text _ :: _ => Text.braced []
  | _, _ => []

mutual

/-- A child as markup. -/
def Node.print : Node → Text
  | .text t => t
  | .code c => c.braced
  | .element tag strings codes children =>
    '<' :: (tag ++ (Props.print id strings ++ (Props.print Text.braced codes ++
      '>' :: (Node.printAll children ++ '<' :: '/' :: (tag ++ ['>'])))))
  | .unsupported _ => []

/-- Children as markup. -/
def Node.printAll : List Node → Text
  | [] => []
  | node :: nodes => node.print ++ (node.gap nodes ++ Node.printAll nodes)

end

/-- An element as markup. -/
def Element.print (e : Element) : Text := e.toNode.print

/-! ## 2. Reading printed props -/

/-- The mode of the reader in an attribute list. -/
def Lexer.Mode.inside : Mode := { expectTagName := false, inAttributes := true }

/-- The tokens of printed props: a name, the mark `=` and a value of this kind for each. -/
inductive ListsProps (kind : Token.Kind) (shown : Text → Text) : List Token → Props → Prop
  | nil : ListsProps kind shown [] []
  | cons {name mark value : Token} {v : Text} {ts : List Token} {props : Props} :
      name.kind = .propName → mark.kind = .equals → value.kind = kind → value.lexeme = shown v →
      ListsProps kind shown ts props →
      ListsProps kind shown (name :: mark :: value :: ts) ((name.lexeme, v) :: props)

theorem ListsProps.inTag {kind : Token.Kind} {shown : Text → Text} {ts : List Token}
    {props : Props} (h : ListsProps kind shown ts props)
    (hkind : kind ≠ .tagEnd ∧ kind ≠ .emptyTagEnd) : ∀ t ∈ ts, Element.inTag t = true := by
  induction h with
  | nil => exact fun t ht => absurd ht List.not_mem_nil
  | cons hname hmark hvalue _ _ ih =>
    intro t ht
    rcases List.mem_cons.mp ht with rfl | ht
    · rw [Element.inTag, hname]; rfl
    rcases List.mem_cons.mp ht with rfl | ht
    · rw [Element.inTag, hmark]; rfl
    rcases List.mem_cons.mp ht with rfl | ht
    · rw [Element.inTag, hvalue]; simp [hkind.1, hkind.2]
    · exact ih t ht

/-- A name ends before a character that is no part of one. -/
theorem notNamePart_head {c : Char} {t : Text} (h : isNamePart c = false) :
    ∀ d ∈ (c :: t).head?, isNamePart d = false := by
  intro d hd
  rw [List.head?_cons, Option.mem_some] at hd
  rwa [← hd]

theorem notNamePart_print (shown : Text → Text) (props : Props) {t : Text}
    (h : ∀ d ∈ t.head?, isNamePart d = false) :
    ∀ d ∈ (props.print shown ++ t).head?, isNamePart d = false := by
  cases props with
  | nil => exact h
  | cons p props => exact notNamePart_head (by decide)

/-- **Printed props are read as they were printed**, if their values are. -/
theorem reads_props {kind : Token.Kind} {shown : Text → Text} :
    ∀ (props : Props) (i : Nat) (rest : Text), (∀ p ∈ props, IsName p.1) →
      (∀ p ∈ props, ∀ i rest, Reads i .inside (shown p.2) rest [⟨kind, shown p.2, i⟩] .inside) →
      ∃ ts, Reads i .inside (props.print shown) rest ts .inside ∧ ListsProps kind shown ts props
  | [], i, rest, _, _ => ⟨[], Reads.nil i .inside rest, .nil⟩
  | (name, v) :: props, i, rest, hname, hvalue => by
    have hn : IsName name := hname (name, v) List.mem_cons_self
    -- from the last piece to the first, so that each is read before what is known to follow
    obtain ⟨ts, hrest, hlist⟩ := reads_props props (i + 1 + name.length + 1 + (shown v).length) rest
      (fun p hp => hname p (List.mem_cons_of_mem _ hp))
      (fun p hp => hvalue p (List.mem_cons_of_mem _ hp))
    have hv := (hvalue (name, v) List.mem_cons_self (i + 1 + name.length + 1) _).append hrest
    have he := ((Takes.equals (m := .inside)).reads (i + 1 + name.length)).append hv
    have hk := ((Takes.propName (m := .inside) hn rfl rfl
      (notNamePart_head (by decide))).reads (i + 1)).append he
    have hb := ((Takes.blank (m := .inside) (c := ' ') (by decide)).reads i).append hk
    have hprint : Props.print shown ((name, v) :: props)
        = [' '] ++ (name ++ (['='] ++ (shown v ++ Props.print shown props))) := by
      simp [Props.print]
    rw [hprint]
    exact ⟨_, hb, .cons rfl rfl rfl rfl hlist⟩

theorem Props.set_of_notMem {name : Text} (value : Text) : ∀ {props : Props},
    name ∉ props.map Prod.fst → Props.set name value props = props ++ [(name, value)]
  | [], _ => rfl
  | (n, v) :: props, h => by
    have hne : n ≠ name := fun heq => h (by simp [heq])
    have hmem : name ∉ props.map Prod.fst := fun hmem => h (List.mem_cons_of_mem _ hmem)
    rw [Props.set, if_neg hne, Props.set_of_notMem value hmem]
    rfl

/-- A name that comes after others in a list without repetitions is not among them. -/
theorem Props.notMem_of_nodup {name v : Text} {props more : Props}
    (h : ((props ++ (name, v) :: more).map Prod.fst).Nodup) : name ∉ props.map Prod.fst := by
  rw [List.map_append, List.map_cons] at h
  intro hmem
  exact (List.nodup_append.mp h).2.2 name hmem name List.mem_cons_self rfl

namespace Element

/-- Listed literals are added to the props in their order. -/
theorem attributes_strings {ts : List Token} {props : Props} (h : ListsProps .string id ts props)
    (codes : Props) (rest : List Token) : ∀ strings : Props,
      ((strings ++ props).map Prod.fst).Nodup →
      attributes strings codes (ts ++ rest) = attributes (strings ++ props) codes rest := by
  induction h with
  | nil =>
    intro strings _
    rw [List.append_nil, List.nil_append]
  | @cons name mark value v ts props hname hmark hvalue hlexeme _ ih =>
    intro strings hnodup
    obtain ⟨_, name, _⟩ := name
    obtain ⟨_, mark, _⟩ := mark
    obtain ⟨_, value, _⟩ := value
    dsimp only at hname hmark hvalue hlexeme
    subst hname hmark hvalue hlexeme
    rw [List.cons_append, List.cons_append, List.cons_append, attributes,
      Props.set_of_notMem _ (Props.notMem_of_nodup hnodup), ih _ (by simpa using hnodup),
      List.append_assoc]
    rfl

/-- Listed code is added to the props in its order. -/
theorem attributes_codes {ts : List Token} {props : Props}
    (h : ListsProps .code Text.braced ts props) (strings : Props) (rest : List Token) :
    ∀ codes : Props, ((codes ++ props).map Prod.fst).Nodup →
      (∀ p ∈ props, Text.trim p.2 = p.2) →
      attributes strings codes (ts ++ rest) = attributes strings (codes ++ props) rest := by
  induction h with
  | nil =>
    intro codes _ _
    rw [List.append_nil, List.nil_append]
  | @cons name mark value v ts props hname hmark hvalue hlexeme _ ih =>
    intro codes hnodup htrim
    obtain ⟨_, name, _⟩ := name
    obtain ⟨_, mark, _⟩ := mark
    obtain ⟨_, value, _⟩ := value
    dsimp only at hname hmark hvalue hlexeme
    subst hname hmark hvalue hlexeme
    have hv : Text.unbraced (Text.braced v) = v := by
      rw [Text.braced, unbraced_block]
      exact htrim _ List.mem_cons_self
    rw [List.cons_append, List.cons_append, List.cons_append, attributes, hv,
      Props.set_of_notMem _ (Props.notMem_of_nodup hnodup),
      ih _ (by simpa using hnodup) (fun p hp => htrim p (List.mem_cons_of_mem _ hp)),
      List.append_assoc]
    rfl

/-! ## 3. Reading printed children -/

/-- What follows a text: the start of a tag or of a block, or nothing. -/
def StopsText (rest : Text) : Prop := ∀ d ∈ rest.head?, isTextPart d = false

theorem stopsText_cons {c : Char} (h : isTextPart c = false) (t : Text) : StopsText (c :: t) := by
  intro d hd
  rw [List.head?_cons, Option.mem_some] at hd
  rwa [← hd]

/-- The children can be read back, wherever they stand. -/
def ReadsBack (children : List Node) : Prop :=
  ∀ i rest, StopsText rest → ∃ ts,
    Reads i .outside (Node.printAll children) rest ts .outside ∧ SpellsContent ts children

theorem reads_text {t rest : Text} (h : IsRunningText t) (hr : StopsText rest) (i : Nat) :
    Reads i .outside t rest [⟨.text, t, i⟩] .outside := by
  cases t with
  | nil => exact absurd rfl h.ne_nil
  | cons c w =>
    have hp : Plain c (w ++ rest).head? := by
      obtain ⟨he, hs, hq⟩ := h.head c rfl
      refine ⟨(Text.trim_eq_self_iff.mp h.trimmed).head c rfl, ?_, he, ?_, hs, hq, ?_⟩
      · rintro rfl; exact h.noTag List.mem_cons_self
      · rintro ⟨rfl, hn⟩
        cases w with
        | nil => exact absurd (hr '>' hn) (by decide)
        | cons d w =>
          rw [List.cons_append, List.head?_cons, Option.some.injEq] at hn
          subst hn
          exact h.noEmptyTagEnd ⟨w, rfl⟩
      · rintro rfl; exact h.noBlock List.mem_cons_self
    have hw : ∀ d ∈ w, isTextPart d = true := by
      intro d hd
      rw [isTextPart, Bool.and_eq_true, bne_iff_ne, bne_iff_ne]
      constructor
      · rintro rfl; exact h.noTag (List.mem_cons_of_mem c hd)
      · rintro rfl; exact h.noBlock (List.mem_cons_of_mem c hd)
    have hreads := (Takes.text (m := .outside) hp (Or.inr rfl) rfl hw hr).reads i
    rwa [h.trimmed] at hreads

theorem reads_code {c : Text} (h : Closes c) (m : Mode) (i : Nat) (rest : Text) :
    Reads i m c.braced rest [⟨.code, c.braced, i⟩] m :=
  (Takes.code h).reads i

/-- A printed closing tag is read as one. -/
theorem reads_closing {tag : Text} (h : IsName tag) (i : Nat) (rest : Text) :
    ∃ ts, Reads i .outside ('<' :: '/' :: (tag ++ ['>'])) rest ts .outside ∧
      SpellsClosing tag ts := by
  have he : Reads (i + 2 + tag.length) .inside ['>'] rest _ .outside := Takes.tagEnd.reads _
  have hn := ((Takes.tagName (m := { Mode.outside with expectTagName := true }) h rfl
    (notNamePart_head (by decide))).reads (i + 2)).append he
  have hc := ((Takes.closing (m := .outside)).reads i).append hn
  exact ⟨_, hc, .intro rfl rfl rfl rfl⟩

/-- **A printed element is read back if its children are.** -/
theorem reads_element {e : Element} (htag : IsName e.tag) (hs : e.strings.IsFormed IsString)
    (hc : e.codes.IsFormed IsCode) (hchildren : ReadsBack e.children) (i : Nat) (rest : Text) :
    ∃ ts, Reads i .outside e.print rest ts .outside ∧ Spells ts e := by
  obtain ⟨tag, strings, codes, children⟩ := e
  dsimp only at htag hs hc hchildren
  have hstring : ∀ p ∈ strings, ∀ i rest,
      Reads i .inside (id p.2) rest [⟨.string, id p.2, i⟩] .inside :=
    fun p hp i rest => (Takes.string (hs.values p hp)).reads i
  have hcode : ∀ p ∈ codes, ∀ i rest,
      Reads i .inside (Text.braced p.2) rest [⟨.code, Text.braced p.2, i⟩] .inside :=
    fun p hp i rest => reads_code (isCode_iff.mp (hc.values p hp)).2 .inside i rest
  have hopen : ∀ t : Text, (tag ++ t).head? ≠ some '/' := by
    obtain ⟨c, w, rfl, hstart, -⟩ := htag
    intro t h
    rw [List.cons_append, List.head?_cons, Option.some.injEq] at h
    subst h
    exact absurd hstart (by decide)
  -- the offsets at which the pieces start
  let afterTag := i + 1 + tag.length
  let afterStrings := afterTag + (Props.print id strings).length
  let afterCodes := afterStrings + (Props.print Text.braced codes).length
  obtain ⟨tail, hclosing, htail⟩ :=
    reads_closing htag (afterCodes + 1 + (Node.printAll children).length) rest
  obtain ⟨inner, hinner, hspells⟩ := hchildren (afterCodes + 1)
    ('<' :: '/' :: (tag ++ ['>']) ++ rest) (stopsText_cons (by decide) _)
  have hstop := ((Takes.tagEnd (m := .inside)).reads afterCodes).append (hinner.append hclosing)
  obtain ⟨tc, hcs, hlistc⟩ := reads_props codes afterStrings _ hc.names hcode
  obtain ⟨ts, hss, hlists⟩ := reads_props strings afterTag _ hs.names hstring
  have hname := ((Takes.tagName (m := { Mode.outside with expectTagName := true }) htag rfl
    (by
      rw [List.append_assoc, List.append_assoc]
      exact notNamePart_print _ _ (notNamePart_print _ _ (notNamePart_head (by decide))))).reads
        (i + 1)).append (hss.append (hcs.append hstop))
  have hread := ((Takes.opening (m := .outside) (by
    rw [List.append_assoc]; exact hopen _)).reads i).append hname
  refine ⟨_, hread, ?_⟩
  have hattributes : attributes [] [] (ts ++ tc) = (strings, codes, []) := by
    have h₁ := attributes_strings hlists [] tc [] (by simpa using hs.nodup)
    have h₂ := attributes_codes hlistc strings [] [] (by simpa using hc.nodup)
      (fun p hp => (hc.values p hp).trimmed)
    rw [List.append_nil, List.nil_append] at h₂
    rw [h₁, List.nil_append, h₂, attributes]
  have hin : ∀ t ∈ ts ++ tc, inTag t = true := by
    intro t ht
    rcases List.mem_append.mp ht with ht | ht
    · exact hlists.inTag (by decide) t ht
    · exact hlistc.inTag (by decide) t ht
  have hstart : SpellsStart (⟨.opening, ['<'], i⟩ :: ⟨.tagName, tag, (i + 1 : Nat)⟩ ::
      ((ts ++ tc) ++ [⟨.tagEnd, ['>'], (afterCodes : Nat)⟩]))
      ⟨i, tag, (attributes [] [] (ts ++ tc)).1, (attributes [] [] (ts ++ tc)).2.1, false⟩ :=
    .intro false rfl rfl hin rfl
  rw [hattributes] at hstart
  have hspell := Spells.full hstart rfl hspells htail
  simpa [placed, StartTag.element] using hspell

/-- After a text comes, if not the end, a block or a tag. -/
theorem stopsText_gap {t : Text} {nodes : List Node} {rest : Text} (hrest : StopsText rest)
    (h : Node.AllWellFormed nodes) :
    StopsText ((Node.gap (.text t) nodes ++ Node.printAll nodes) ++ rest) := by
  cases nodes with
  | nil => exact hrest
  | cons node nodes =>
    cases node with
    | text => exact stopsText_cons (by decide) _
    | code => exact stopsText_cons (by decide) _
    | element => exact stopsText_cons (by decide) _
    | unsupported => exact h.1.elim

/-- What stands between two children is read as no child. -/
theorem reads_gap (node : Node) (nodes : List Node) (i : Nat) (rest : Text) :
    ∃ ts, Reads i .outside (node.gap nodes) rest ts .outside ∧
      ∀ more nodes', SpellsContent more nodes' → SpellsContent (ts ++ more) nodes' := by
  have hcloses : Closes [] := closes_of_codeEnd (i := 0) (v := []) rfl
  have hempty : Text.unbraced (Text.braced []) = [] := unbraced_block []
  unfold Node.gap
  split
  · exact ⟨_, reads_code hcloses .outside i rest, fun more nodes' h => .emptyCode rfl hempty h⟩
  · exact ⟨[], Reads.nil i .outside rest, fun more nodes' h => h⟩

mutual

theorem reads_node : ∀ (node : Node), node.WellFormed → ∀ (i : Nat) (rest : Text),
    (∀ t, node = .text t → StopsText rest) → ∃ ts, Reads i .outside node.print rest ts .outside ∧
      ∀ more nodes, SpellsContent more nodes → SpellsContent (ts ++ more) (node :: nodes)
  | .text t, h, i, rest, hrest => by
    rw [Node.WellFormed] at h
    rw [Node.print]
    exact ⟨_, reads_text h (hrest t rfl) i, fun more nodes hmore => .text rfl hmore⟩
  | .code c, h, i, rest, _ => by
    rw [Node.WellFormed, isCode_iff] at h
    obtain ⟨⟨htrim, hcloses⟩, hne⟩ := h
    have hc : Text.unbraced c.braced = c := (unbraced_block c).trans htrim
    rw [Node.print]
    refine ⟨_, reads_code hcloses .outside i rest, fun more nodes hmore => ?_⟩
    have hcode := SpellsContent.code (t := ⟨.code, c.braced, i⟩) rfl (by rwa [hc]) hmore
    rwa [hc] at hcode
  | .element tag strings codes children, h, i, rest, _ => by
    rw [Node.WellFormed] at h
    obtain ⟨htag, hs, hc, hchildren⟩ := h
    obtain ⟨ts, hread, hspells⟩ := reads_element (e := ⟨tag, strings, codes, children⟩) htag hs hc
      (readsBack children hchildren) i rest
    exact ⟨ts, hread, fun more nodes hmore => hspells.content hmore⟩
  | .unsupported _, h, _, _, _ => by
    rw [Node.WellFormed] at h
    exact h.elim

/-- **Printed children are read back.** -/
theorem readsBack : ∀ (children : List Node), Node.AllWellFormed children → ReadsBack children
  | [], _ => fun i rest _ => by
    rw [Node.printAll]
    exact ⟨[], Reads.nil i .outside rest, .nil⟩
  | node :: nodes, h => fun i rest hrest => by
    rw [Node.AllWellFormed] at h
    obtain ⟨ts, hnodes, hspells⟩ := readsBack nodes h.2
      (i + node.print.length + (node.gap nodes).length) rest hrest
    obtain ⟨tg, hgap, hskip⟩ := reads_gap node nodes (i + node.print.length)
      (Node.printAll nodes ++ rest)
    obtain ⟨tn, hnode, hadd⟩ := reads_node node h.1 i
      ((node.gap nodes ++ Node.printAll nodes) ++ rest) (fun t ht => by
        subst ht; exact stopsText_gap hrest h.2)
    rw [Node.printAll]
    exact ⟨_, hnode.append (hgap.append hnodes), hadd _ _ (hskip _ _ hspells)⟩

end

/-! ## 4. Reading undoes printing -/

/-- **Markup that prints a well-formed element says that element.** -/
theorem ofMarkup_print {e : Element} (h : e.WellFormed) : ofMarkup e.print = .ok e := by
  rw [WellFormed, toNode, Node.WellFormed] at h
  obtain ⟨htag, hs, hc, hchildren⟩ := h
  obtain ⟨ts, hread, hspells⟩ := reads_element htag hs hc (readsBack _ hchildren) 0 []
  have htokens := hread.tokens
  have hfailure := hread.failure
  rw [List.append_nil, run_nil] at htokens hfailure
  refine ofMarkup_eq_ok_iff.mpr ⟨hfailure, ?_⟩
  rw [List.append_nil] at htokens
  rwa [Lexed.ofText, show ({} : Mode) = .outside from rfl, htokens]

/-- **Reading undoes printing, and reads nothing but what can be printed.**

The elements that some markup says are the well-formed ones.  Each of them is said by its printed
form, so printing an element that was read and reading it again gives the same element. -/
theorem ofMarkup_inverts_print :
    (∀ e : Element, e.WellFormed → ofMarkup e.print = .ok e) ∧
      (∀ markup e, ofMarkup markup = .ok e →
        e.WellFormed ∧ ofMarkup e.print = ofMarkup markup) ∧
      ∀ e : Element, (∃ markup, ofMarkup markup = .ok e) ↔ e.WellFormed := by
  refine ⟨fun e h => ofMarkup_print h, fun markup e h => ?_, fun e => ⟨?_, fun h => ?_⟩⟩
  · have hwf := wellFormed_of_ofMarkup h
    exact ⟨hwf, (ofMarkup_print hwf).trans h.symm⟩
  · rintro ⟨markup, h⟩
    exact wellFormed_of_ofMarkup h
  · exact ⟨e.print, ofMarkup_print h⟩

/-- An element with both kinds of props, with texts side by side, code and an element in it. -/
theorem ofMarkup_inverts_print_mixed :
    let e : Element :=
      { tag := "a", strings := [("k", "'<'")], codes := [("c-d", "f({})"), ("n", "")],
        children := [.text "t", .text "u > v", .code "y", .element "b" [] [] []] }
    e.print = "<a k='<' c-d={f({})} n={}>t{}u > v{y}<b></b></a>" ∧
      e.WellFormed ∧ ofMarkup e.print = .ok e := by
  have hread : ofMarkup "<a k='<' c-d={f({})} n={}>t{}u > v{y}<b/></a>" =
      .ok { tag := "a", strings := [("k", "'<'")], codes := [("c-d", "f({})"), ("n", "")],
            children := [.text "t", .text "u > v", .code "y", .element "b" [] [] []] } := by
    cbv
  obtain ⟨hwf, hprint⟩ := ofMarkup_inverts_print.2.1 _ _ hread
  exact ⟨rfl, hwf, hprint.trans hread⟩

end Element

end InlineMarkup
