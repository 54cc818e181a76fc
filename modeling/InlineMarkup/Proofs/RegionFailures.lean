import InlineMarkup.Expansion
import InlineMarkup.Proofs.CursorSteps
import InlineMarkup.Proofs.Spans
import InlineMarkup.Proofs.SyntaxFaults
import InlineMarkup.Proofs.Unterminated

/-!
# Where the failures of a region point

The work on a region has three stages, and each has faults of its own.  Those of the third, the
writing of the call, do not arise: what they are about is no part of a well-formed element
(`Call.exists_render`), and the elements that markup says are well-formed.  So a region is at fault
in its tokens or in its elements.

Tokens stand in the text they are read from, and every fault is at a token, or at the literal or
block that does not end.  Therefore a failure points into the markup, unless there is no token at
all to point at; and the texts without tokens are those of blanks only (`ofText_eq_nil_iff`).
-/

namespace InlineMarkup

/-! ## 1. Writing does not fail -/

namespace Call

variable {names : Names}

mutual

/-- A well-formed child is written as an argument, or left out. -/
theorem exists_argument (parent : Text) (indent : Int) : ∀ {node : Node}, node.WellFormed →
    ∃ arg, argument .free names parent indent node = .ok arg
  | .text t, _ => ⟨_, by rw [argument]⟩
  | .code c, _ => ⟨_, by rw [argument]⟩
  | .element tag strings codes children, h => by
    rw [Node.WellFormed] at h
    obtain ⟨⟨c, rest, rfl, -, -⟩, -, -, hchildren⟩ := h
    obtain ⟨args, hargs⟩ := exists_arguments (c :: rest) (indent + indentStep) hchildren
    rw [argument, hargs]
    exact ⟨_, rfl⟩

/-- Well-formed children are written as arguments. -/
theorem exists_arguments (parent : Text) (indent : Int) : ∀ {nodes : List Node},
    Node.AllWellFormed nodes → ∃ args, arguments .free names parent indent nodes = .ok args
  | [], _ => ⟨_, by rw [arguments]⟩
  | node :: nodes, h => by
    rw [Node.AllWellFormed] at h
    obtain ⟨arg, harg⟩ := exists_argument parent indent h.1
    obtain ⟨args, hargs⟩ := exists_arguments parent indent h.2
    rw [arguments, harg, hargs]
    exact ⟨_, rfl⟩

end

/-- **A well-formed element has a call.** -/
theorem exists_render (indent : Int) {e : Element} (h : e.WellFormed) :
    ∃ call, render names indent e = .ok call := by
  rw [Element.WellFormed, Element.toNode, Node.WellFormed] at h
  obtain ⟨⟨c, rest, htag, -, -⟩, -, -, hchildren⟩ := h
  obtain ⟨args, hargs⟩ := exists_arguments e.tag (indent + indentStep) hchildren
  have hchildArguments :
      childArguments .free names e.tag (indent + indentStep) e.children = .ok args := hargs
  rw [render, renderWith, hchildArguments, htag]
  exact ⟨_, rfl⟩

/-- **Markup has no call only if it cannot be read.** -/
theorem ofMarkup_eq_error_iff {markup : Text} {e : MarkupError} :
    ofMarkup names markup = .error e ↔ Token.ofText markup = .error e ∨
      ∃ tokens, Token.ofText markup = .ok tokens ∧ Element.ofTokens tokens = .error e := by
  unfold ofMarkup
  cases htokens : Token.ofText markup with
  | error e' => simp
  | ok tokens =>
    cases hroot : Element.ofTokens tokens with
    | error e' => simp [hroot]
    | ok root =>
      obtain ⟨-, rfl⟩ := Element.ofText_eq_ok_iff.mp htokens
      have hwf : root.WellFormed :=
        (Element.ofTokens_eq_ok_iff.mp hroot).wellFormed (Lexer.run_formed 0 {} markup)
      obtain ⟨call, hcall⟩ : ∃ call, render names 0 root = .ok call := exists_render 0 hwf
      simp [hroot, hcall]

end Call

/-! ## 2. Texts without tokens -/

/-- Blanks are read without a token, wherever they stand. -/
theorem Lexer.readsThrough_blanks {m : Lexer.Mode} {rest : Text} : ∀ {t : Text} {i : Nat},
    Text.AllBlank t → Lexer.ReadsThrough i m t rest [] m
  | [], _, _ => .nil
  | c :: _, _, h =>
    .step (.blank (h c List.mem_cons_self))
      (readsThrough_blanks fun x hx => h x (List.mem_cons_of_mem c hx))

/-- **A text has no tokens exactly if it is blank.** -/
theorem ofText_eq_nil_iff {t : Text} : Token.ofText t = .ok [] ↔ Text.AllBlank t := by
  constructor
  · intro h c hc
    obtain ⟨hfailure, htokens⟩ := Element.ofText_eq_ok_iff.mp h
    have hreads := (Lexer.readsAll_run 0 {} t hfailure).1
    change Lexer.ReadsAll 0 {} t (Lexed.ofText t).tokens at hreads
    rw [htokens] at hreads
    obtain ⟨a, b, hsplit⟩ := List.append_of_mem hc
    -- a stray needs the name of a tag before it, or a mode in which no reading starts
    obtain hblank | ⟨-, hlast | ⟨-, hinside⟩⟩ :=
      hreads.between a c b hsplit fun token hmem => absurd hmem List.not_mem_nil
    · exact hblank
    · cases hlast
    · cases hinside
  · intro h
    have hreads : Lexer.ReadsThrough 0 {} t [] [] {} := Lexer.readsThrough_blanks h
    exact hreads.ofText_piece.1

/-! ## 3. Places -/

/-- The tokens of a text stand in it. -/
theorem Token.within_of_ofText {t : Text} {tokens : List Token} (h : Token.ofText t = .ok tokens) :
    ∀ token ∈ tokens, 0 ≤ token.position ∧ token.position < t.length := by
  obtain ⟨hfailure, rfl⟩ := Element.ofText_eq_ok_iff.mp h
  intro token hmem
  obtain ⟨hne, a, b, ht, hposition⟩ := (Lexer.readsAll_run 0 {} t hfailure).1.span token hmem
  have hpos := List.length_pos_iff.mpr hne
  have hlength : t.length = a.length + (token.lexeme.length + b.length) := by
    rw [← List.length_append, ← List.length_append, ← ht]
  omega

/-- **Tokens that make up no element are at fault at a place of theirs**, if there are any. -/
theorem Element.failure_of_ofTokens {tokens : List Token} {e : MarkupError} {P : Option Int → Prop}
    (h : ofTokens tokens = .error e) (hlast : tokens = [] → P none)
    (htokens : ∀ t ∈ tokens, P (some t.position)) :
    e.fault.stage = .element ∧ P e.position := by
  unfold ofTokens at h
  split at h
  · cases h
  · rename_i f hread
    cases h
    refine failsAt_readWhole (fun hnil => ?_) htokens f hread
    rw [hnil]
    exact hlast hnil

/-- **A region fails while it is read, and its failure points into its markup.**

An error is about tokens or about elements, never about the writing of the call.  Its place, if it
has one, is in the markup.  It has none exactly if the markup is blank, which always fails.  Nor
does a step of the reading ask for a token that is not there: read step by step, the tokens come to
the same element or to the same error. -/
theorem ofMarkup_fails_within (names : Names) (markup : Text) :
    (∀ e, Call.ofMarkup names markup = .error e →
      (e.fault.stage = .token ∨ e.fault.stage = .element) ∧
        ∀ p, e.position = some p → 0 ≤ p ∧ p < markup.length) ∧
    ((∃ e, Call.ofMarkup names markup = .error e ∧ e.position = none) ↔
      ∀ c ∈ markup, Text.isBlank c = true) ∧
    ∀ tokens, Token.ofText markup = .ok tokens →
      (Cursor.document ⟨tokens, 0⟩).1 = (Element.ofTokens tokens).mapError Cursor.Fault.markup := by
  refine ⟨fun e he => ?_, ⟨?_, fun hblank => ?_⟩,
    fun tokens _ => Cursor.document_eq_ofTokens tokens⟩
  · obtain hlex | ⟨tokens, htokens, hroot⟩ := Call.ofMarkup_eq_error_iff.mp he
    · obtain ⟨hstage, p, hp, -, hlt⟩ :=
        Lexer.failure_within (Token.ofText_eq_error_iff.mp hlex)
      refine ⟨Or.inl hstage, fun q hq => ?_⟩
      rw [hp, Option.some.injEq] at hq
      omega
    · obtain ⟨hstage, hplace⟩ := Element.failure_of_ofTokens
        (P := fun place => ∀ p, place = some p → 0 ≤ p ∧ p < markup.length) hroot
        (fun _ p hp => by cases hp)
        (fun t ht p hp => Option.some.inj hp ▸ Token.within_of_ofText htokens t ht)
      exact ⟨Or.inr hstage, hplace⟩
  · rintro ⟨e, he, hnone⟩
    obtain hlex | ⟨tokens, htokens, hroot⟩ := Call.ofMarkup_eq_error_iff.mp he
    · obtain ⟨-, p, hp, -⟩ := Lexer.failure_within (Token.ofText_eq_error_iff.mp hlex)
      rw [hnone] at hp
      cases hp
    · have hempty : tokens = [] := by
        by_contra hne
        obtain ⟨-, hplace⟩ := Element.failure_of_ofTokens (P := fun place => place ≠ none) hroot
          (fun hnil => absurd hnil hne) fun t _ h => by cases h
        exact hplace hnone
      rw [hempty] at htokens
      exact ofText_eq_nil_iff.mp htokens
  · exact ⟨⟨.expectedElement, none⟩,
      Call.ofMarkup_eq_error_iff.mpr (Or.inr ⟨[], ofText_eq_nil_iff.mpr hblank, rfl⟩), rfl⟩

end InlineMarkup
