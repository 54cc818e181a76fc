import InlineMarkup.Proofs.LiteralGrammar
import InlineMarkup.Proofs.Spans

/-!
# Readings that fail

A reading fails at a quote or a brace that is never closed, and at nothing else.  By then it has
read what stands before that place just as it would have read it alone, and it has not touched the
rest (`unterminated_state`).

The failure is that of a text that is not yet complete.  Whatever is added at the end, the reading
comes to the same place with the same tokens.  There it fails again, or else it reads the literal or
the block, and that token reaches into what was added (`reaches_past_of_step`): a shorter one would
have been found without the addition, since the end of a literal or a block does not depend on
anything after it.
-/

namespace InlineMarkup

open Literal

namespace Lexer

variable {m : Mode} {c : Char} {t more : Text} {fault : MarkupFault}

/-- No complete literal and no complete block stands where a step fails. -/
theorem incomplete_of_step (h : step m c t = .error fault) {u : Text} (hu : u <+: c :: t) :
    (isQuote c = true → ¬ IsLiteral u) ∧ (c = '{' → ¬ IsBlock u) := by
  obtain ⟨hquote, hend, -⟩ | ⟨rfl, hend, -⟩ := step_eq_error h
  · refine ⟨fun _ => not_isLiteral_of_stringEnd hend hu, ?_⟩
    rintro rfl
    cases hquote
  · refine ⟨?_, fun _ => not_isBlock_of_codeEnd hend hu⟩
    intro hquote
    cases hquote

/-- What `x` closes in two texts put together, and in the first of them does not, ends in the
second. -/
theorem closed_past {u v : Text} {x : Char} (h : t ++ more = u ++ x :: v)
    (hnot : ∀ d, t ≠ u ++ x :: d) (c : Char) :
    c :: (t ++ more).take (0 + u.length + 1) <+: c :: (t ++ more) ∧
      (c :: t).length < (c :: (t ++ more).take (0 + u.length + 1)).length := by
  have hpast : t.length ≤ u.length := by
    obtain ⟨d, hd, -⟩ | ⟨d, rfl, -⟩ := append_eq_append_cons h
    · exact absurd hd (hnot d)
    · simp
  refine ⟨List.cons_prefix_cons.mpr ⟨rfl, List.take_prefix _ _⟩, ?_⟩
  rw [h, Nat.zero_add, take_through]
  simp only [List.length_cons, List.length_append, List.length_nil]
  omega

/-- **A literal or a block that is complete only with an addition reaches into the addition.** -/
theorem reaches_past_of_step (h : step m c t = .error fault) {s : Step}
    (hs : step m c (t ++ more) = .ok s) : ∃ kind lexeme, s.token = some (kind, lexeme) ∧
      (isQuote c = true ∧ kind = .string ∨ c = '{' ∧ kind = .code) ∧
      lexeme <+: c :: (t ++ more) ∧ (c :: t).length < lexeme.length := by
  obtain ⟨hquote, hend, -⟩ | ⟨rfl, hend, -⟩ := step_eq_error h
  · rw [step_quote hquote] at hs
    cases hlater : stringEnd c 0 (t ++ more) with
    | none => rw [hlater] at hs; cases hs
    | some n =>
      rw [hlater] at hs
      cases hs
      obtain ⟨u, v, heq, hu, rfl⟩ := (stringEnd_eq_some_iff hquote).mp hlater
      refine ⟨_, _, rfl, Or.inl ⟨hquote, rfl⟩, closed_past heq (fun d hd => ?_) c⟩
      rw [hd, hu.stringEnd hquote] at hend
      cases hend
  · rw [step_brace] at hs
    cases hlater : codeEnd 1 none 0 (t ++ more) with
    | none => rw [hlater] at hs; cases hs
    | some n =>
      rw [hlater] at hs
      cases hs
      obtain ⟨u, v, heq, hu, rfl⟩ := codeEnd_eq_some_iff.mp hlater
      refine ⟨_, _, rfl, Or.inr ⟨rfl, rfl⟩, closed_past heq (fun d hd => ?_) '{'⟩
      rw [codeEnd_eq_some_iff.mpr ⟨u, d, hd, hu, rfl⟩] at hend
      cases hend

/-- A piece that is read at the start of a text is read alone, with the same tokens and to the same
mode. -/
theorem ReadsThrough.ofText_piece {u rest : Text} {ts : List Token} {m' : Mode}
    (h : ReadsThrough 0 {} u rest ts m') :
    Token.ofText u = .ok ts ∧ (Lexed.ofText u).mode = m' := by
  have halone : ReadsThrough 0 {} u [] ts m' := h.of_head fun d hd => by cases hd
  have htokens := halone.reads.tokens
  have hfailure := halone.reads.failure
  have hmode := halone.run_stop.2
  rw [List.append_nil, run_nil] at htokens hfailure hmode
  rw [List.append_nil] at htokens
  exact ⟨Element.ofText_eq_ok_iff.mpr ⟨hfailure, htokens⟩, hmode⟩

end Lexer

open Lexer in
/-- **The state in which a reading fails.**

The error points at a quote or a brace, which is where the reader stands.  The text before that
place is read without an error to the tokens read so far and to the mode the reader is in.  No
complete literal, if it is a quote, and no complete block, if it is a brace, starts there.

Whatever `more` is put at the end of the text, the reading fails again at that place after the same
tokens, or it yields these tokens and then, from that place, a literal or a block that ends behind
the end of the text. -/
theorem unterminated_state {t : Text} {e : MarkupError} (h : Token.ofText t = .error e) :
    ∃ (p : Nat) (c : Char), e.position = some (p : Int) ∧ e.fault.stage = .token ∧
      (Lexed.ofText t).position = p ∧ t[p]? = some c ∧ (isQuote c = true ∨ c = '{') ∧
      Token.ofText (t.take p) = .ok (Lexed.ofText t).tokens ∧
      (Lexed.ofText (t.take p)).mode = (Lexed.ofText t).mode ∧
      (∀ u, u <+: t.drop p → (isQuote c = true → ¬ IsLiteral u) ∧ (c = '{' → ¬ IsBlock u)) ∧
      ∀ more : Text,
        ((∃ e', Token.ofText (t ++ more) = .error e' ∧ e'.position = some (p : Int)) ∧
          (Lexed.ofText (t ++ more)).tokens = (Lexed.ofText t).tokens) ∨
        ∃ kind lexeme later, (isQuote c = true ∧ kind = .string ∨ c = '{' ∧ kind = .code) ∧
          (Lexed.ofText (t ++ more)).tokens =
            (Lexed.ofText t).tokens ++ ⟨kind, lexeme, p⟩ :: later ∧
          lexeme <+: (t ++ more).drop p ∧ t.length < p + lexeme.length := by
  have hsome := Token.ofText_eq_error_iff.mp h
  obtain ⟨hstage, -⟩ := failure_within hsome
  obtain ⟨u, rest, ht, hreads, hposition, ⟨-, hnone⟩ | ⟨c, w, fault, rfl, hstep, hfailure⟩⟩ :=
    exists_readsThrough 0 {} t
  · rw [Lexed.ofText, hnone] at hsome
    cases hsome
  rw [Lexed.ofText, hfailure, Nat.zero_add] at hsome
  change ReadsThrough 0 {} u (c :: w) (Lexed.ofText t).tokens (Lexed.ofText t).mode at hreads
  change step (Lexed.ofText t).mode c w = .error fault at hstep
  have htake : t.take u.length = u := by rw [ht, List.take_left]
  have hdrop : t.drop u.length = c :: w := by rw [ht, List.drop_left]
  have hchar : isQuote c = true ∨ c = '{' := (step_eq_error hstep).imp And.left And.left
  obtain ⟨hpiece, hmode⟩ := hreads.ofText_piece
  refine ⟨u.length, c, ?_, hstage, hposition.trans (Nat.zero_add _), ?_, hchar, ?_, ?_, ?_, ?_⟩
  · rw [← Option.some.inj hsome]
  · rw [← List.head?_drop, hdrop, List.head?_cons]
  · rwa [htake]
  · rwa [htake]
  · rw [hdrop]
    exact fun v hv => incomplete_of_step hstep hv
  intro more
  have hsplit : t ++ more = u ++ c :: (w ++ more) := by rw [ht, List.append_assoc, List.cons_append]
  have hdropMore : (t ++ more).drop u.length = c :: (w ++ more) := by rw [hsplit, List.drop_left]
  -- the first character of what follows is the same as before, so the piece is read as before
  have hagain : ReadsThrough 0 {} u (c :: (w ++ more)) (Lexed.ofText t).tokens
      (Lexed.ofText t).mode := hreads.of_head fun d hd => hd
  have htokens := hagain.reads.tokens
  have hfails := hagain.reads.failure
  rw [← hsplit, Nat.zero_add] at htokens hfails
  rw [hdropMore]
  cases hs : step (Lexed.ofText t).mode c (w ++ more) with
  | error fault' =>
    rw [run_of_error hs, List.append_nil] at htokens
    rw [run, hs] at hfails
    exact Or.inl ⟨⟨_, Token.ofText_eq_error_iff.mpr hfails, rfl⟩, htokens⟩
  | ok s =>
    obtain ⟨kind, lexeme, htoken, hkind, hprefix, hlength⟩ := reaches_past_of_step hstep hs
    rw [(run_of_step hs _).1, htoken] at htokens
    refine Or.inr ⟨kind, lexeme, _, hkind, htokens, hprefix, ?_⟩
    rw [ht, List.length_append]
    omega

/-- A brace in quotes does not close the block, and the quotes are not closed either; with another
quote and another brace the block is complete. -/
theorem unterminated_state_block :
    let t : Text := "<a b='x'>c \x7bd \"\x7d"
    let more : Text := "\"\x7d e"
    let e : MarkupError := ⟨.unterminatedCode (t.drop 11), some 11⟩
    Token.ofText t = .error e ∧ Token.ofText (t.take 11) = .ok (Lexed.ofText t).tokens ∧
      ¬ IsBlock (t.drop 11) ∧ ∃ lexeme later, (Lexed.ofText (t ++ more)).tokens =
        (Lexed.ofText t).tokens ++ ⟨.code, lexeme, 11⟩ :: later ∧
      t.length < 11 + lexeme.length := by
  intro t more e
  have herror : Token.ofText t = .error e := by decide +kernel
  have hok : (Token.ofText (t ++ more)).isOk = true := by decide +kernel
  obtain ⟨p, c, hp, -, -, hc, -, hbefore, -, hnone, hmore⟩ := unterminated_state herror
  obtain rfl : p = 11 := (Int.ofNat.inj (Option.some.inj hp)).symm
  obtain rfl : '{' = c := Option.some.inj hc
  refine ⟨herror, hbefore, (hnone _ List.prefix_rfl).2 rfl, ?_⟩
  obtain ⟨⟨e', he', -⟩, -⟩ | ⟨kind, lexeme, later, hkind, htokens, -, hlength⟩ := hmore more
  · rw [he'] at hok
    cases hok
  · obtain rfl : kind = .code := (hkind.resolve_left fun h => by cases h.1).2
    exact ⟨lexeme, later, htokens, hlength⟩

end InlineMarkup
