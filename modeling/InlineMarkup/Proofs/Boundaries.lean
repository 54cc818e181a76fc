import InlineMarkup.Proofs.WellFormed

/-!
# Where a reading can be cut

A step of the reader looks at the piece it takes and at one more character at most, and that the
text ends there is as good as any character (`Takes.of_head`).  So what a reading makes of a piece
of its text hardly depends on what follows the piece (`ReadsThrough.of_head`).

After the end of a tag even the next character does not matter, and the reader is back in the mode
it started in.  There the reading of a text falls into two: the second is the reading of a text of
its own, with every place moved by the length of the first (`ofText_append_of_tagEnd`).

A reading that fails does so at a quote or a brace that is never closed (`step_eq_error`), and
everything before that place has been read (`exists_readsThrough`).
-/

namespace InlineMarkup

open Literal

/-- The token, `n` characters further on. -/
def Token.moved (n : Nat) (token : Token) : Token :=
  { token with position := token.position + n }

/-- The error, `n` characters further on. -/
def MarkupError.moved (n : Nat) (e : MarkupError) : MarkupError :=
  { e with position := e.position.map (· + (n : Int)) }

theorem Token.ofText_eq_error_iff {t : Text} {e : MarkupError} :
    Token.ofText t = .error e ↔ (Lexed.ofText t).failure = some e := by
  unfold Token.ofText
  dsimp only
  cases (Lexed.ofText t).failure with
  | none => simp
  | some err => simp

namespace Lexer

/-! ## 1. The character after a step -/

/-- What `rest'` starts with, if anything, `rest` starts with too; so it is after any text. -/
theorem head_append {rest rest' : Text} (h : ∀ d ∈ rest'.head?, d ∈ rest.head?) :
    ∀ t : Text, ∀ d ∈ (t ++ rest').head?, d ∈ (t ++ rest).head?
  | [] => h
  | _ :: _ => fun _ hd => hd

theorem Plain.of_next {c : Char} {next next' : Option Char} (h : Plain c next)
    (hnext : ∀ d ∈ next', d ∈ next) : Plain c next' :=
  { h with notEmptyTagEnd := fun hc => h.notEmptyTagEnd ⟨hc.1, hnext _ hc.2⟩ }

/-- **A step that is taken before a text is taken before every text with the same first character,
and at the end of the text.** -/
theorem Takes.of_head {m m' : Mode} {p rest rest' : Text} {token : Option (Token.Kind × Text)}
    (h : Takes m p rest token m') (hhead : ∀ d ∈ rest'.head?, d ∈ rest.head?) :
    Takes m p rest' token m' := by
  cases h with
  | blank hb => exact .blank hb
  | closing => exact .closing
  | opening hn => exact .opening fun h => hn (hhead _ h)
  | tagEnd => exact .tagEnd
  | emptyTagEnd => exact .emptyTagEnd
  | equals => exact .equals
  | string hs => exact .string hs
  | code hu => exact .code hu
  | tagName hn he hr => exact .tagName hn he fun d hd => hr d (hhead d hd)
  | propName hn he ha hr => exact .propName hn he ha fun d hd => hr d (hhead d hd)
  | stray hp hn ha => exact .stray (hp.of_next hhead) hn ha
  | text hp hn ha hw hr =>
    exact .text (hp.of_next (head_append hhead _)) hn ha hw fun d hd => hr d (hhead d hd)

/-- **The end of a tag is taken whatever follows it**, and so is what is dropped outside of tags. -/
theorem Takes.of_tagEnd {m m' : Mode} {p rest : Text} {token : Option (Token.Kind × Text)}
    (h : Takes m p rest token m') (hnone : token = none → m = .outside)
    (hsome : ∀ t ∈ token, t.1 = .tagEnd ∨ t.1 = .emptyTagEnd) :
    m' = .outside ∧ ∀ rest', Takes m p rest' token m' := by
  cases h with
  | blank hb => exact ⟨hnone rfl, fun _ => .blank hb⟩
  | tagEnd => exact ⟨rfl, fun _ => .tagEnd⟩
  | emptyTagEnd => exact ⟨rfl, fun _ => .emptyTagEnd⟩
  | stray _ _ ha =>
    rw [hnone rfl] at ha
    cases ha
  | closing | opening | equals | string | code | tagName | propName | text =>
    rcases hsome _ rfl with hkind | hkind <;> cases hkind

/-! ## 2. Reading a piece of a text -/

/-- Reading the piece `t`, which `rest` follows, step by step, from offset `i` and mode `m` on: the
steps yield the tokens `ts` and leave mode `m'`. -/
inductive ReadsThrough : Nat → Mode → Text → Text → List Token → Mode → Prop
  | nil {i : Nat} {m : Mode} {rest : Text} : ReadsThrough i m [] rest [] m
  | step {i : Nat} {m m₁ m' : Mode} {p t rest : Text} {token : Option (Token.Kind × Text)}
      {ts : List Token} : Takes m p (t ++ rest) token m₁ →
      ReadsThrough (i + p.length) m₁ t rest ts m' →
      ReadsThrough i m (p ++ t) rest (placed i token ++ ts) m'

theorem Takes.run_stop {m m' : Mode} {p rest : Text} {token : Option (Token.Kind × Text)}
    (h : Takes m p rest token m') (i : Nat) :
    (run i m (p ++ rest)).position = (run (i + p.length) m' rest).position ∧
      (run i m (p ++ rest)).mode = (run (i + p.length) m' rest).mode := by
  obtain ⟨c, w, stray, rfl, hstep⟩ := h.step
  have hlen : i + (c :: w).length = i + 1 + w.length := by rw [List.length_cons]; omega
  rw [List.cons_append, run, hstep, hlen]
  simp only [List.drop_left, and_self]

namespace ReadsThrough

variable {i : Nat} {m m' : Mode} {t rest : Text} {ts : List Token}

/-- **What is read of a piece depends on the character after it at most**, and if the text ends
there the same is read. -/
theorem of_head (h : ReadsThrough i m t rest ts m') {rest' : Text}
    (hhead : ∀ d ∈ rest'.head?, d ∈ rest.head?) : ReadsThrough i m t rest' ts m' := by
  induction h with
  | nil => exact .nil
  | step htakes _ ih => exact .step (htakes.of_head (head_append hhead _)) (ih hhead)

theorem reads (h : ReadsThrough i m t rest ts m') : Reads i m t rest ts m' := by
  induction h with
  | nil => exact .nil _ _ _
  | step htakes _ ih => exact (htakes.reads _).append ih

theorem run_stop (h : ReadsThrough i m t rest ts m') :
    (run i m (t ++ rest)).position = (run (i + t.length) m' rest).position ∧
      (run i m (t ++ rest)).mode = (run (i + t.length) m' rest).mode := by
  induction h with
  | nil => exact ⟨rfl, rfl⟩
  | @step i m m₁ m' p t rest token ts htakes _ ih =>
    rw [List.append_assoc, List.length_append, ← Nat.add_assoc, (htakes.run_stop i).1,
      (htakes.run_stop i).2]
    exact ih

/-- A piece that yields a token is not empty. -/
theorem ne_nil (h : ReadsThrough i m t rest ts m') (hts : ts ≠ []) : t ≠ [] := by
  cases h with
  | nil => exact absurd rfl hts
  | step htakes _ =>
    obtain ⟨c, w, -, rfl, -⟩ := htakes.step
    exact List.cons_ne_nil _ _

/-- **What ends in the end of a tag is read in the same way whatever follows it.**  Behind the last
token only what is outside of tags is read; the induction carries this as the mode in which a
reading without tokens starts. -/
theorem of_tagEnd (h : ReadsThrough i m t rest ts m')
    (hlast : ∀ last ∈ ts.getLast?, last.kind = .tagEnd ∨ last.kind = .emptyTagEnd)
    (hnone : ts = [] → m = .outside) (rest' : Text) :
    m' = .outside ∧ ReadsThrough i m t rest' ts m' := by
  induction h with
  | nil => exact ⟨hnone rfl, .nil⟩
  | @step i m m₁ m' p t rest token ts htakes hrest ih =>
    have hlater : ∀ last ∈ ts.getLast?, last.kind = .tagEnd ∨ last.kind = .emptyTagEnd := by
      intro last hmem
      refine hlast last ?_
      rw [List.getLast?_append, Option.mem_def.mp hmem]
      rfl
    by_cases hts : ts = []
    · subst hts
      have hsome : ∀ t ∈ token, t.1 = .tagEnd ∨ t.1 = .emptyTagEnd := by
        rintro t ht
        obtain rfl := Option.mem_def.mp ht
        exact hlast ⟨t.1, t.2, i⟩ rfl
      obtain ⟨hmode, hfree⟩ := htakes.of_tagEnd (fun h => hnone (by rw [h]; rfl)) hsome
      obtain ⟨houtside, hreads⟩ := ih hlater fun _ => hmode
      exact ⟨houtside, .step (hfree _) hreads⟩
    · obtain ⟨houtside, hreads⟩ := ih hlater fun h => absurd h hts
      obtain ⟨c, w, rfl⟩ := List.exists_cons_of_ne_nil (hrest.ne_nil hts)
      exact ⟨houtside, .step (htakes.of_head fun _ hd => hd) hreads⟩

end ReadsThrough

/-! ## 3. Where a reading ends -/

/-- **A step fails only at a quote or a brace that is never closed.** -/
theorem step_eq_error {m : Mode} {c : Char} {t : Text} {fault : MarkupFault}
    (h : step m c t = .error fault) :
    isQuote c = true ∧ stringEnd c 0 t = none ∧ fault = .unterminatedString (c :: t) ∨
      c = '{' ∧ codeEnd 1 none 0 t = none ∧ fault = .unterminatedCode (c :: t) := by
  by_cases hquote : isQuote c = true
  · rw [step_quote hquote] at h
    cases hend : stringEnd c 0 t with
    | some n => rw [hend] at h; cases h
    | none =>
      rw [hend] at h
      cases h
      exact Or.inl ⟨hquote, rfl, rfl⟩
  by_cases hbrace : c = '{'
  · subst hbrace
    rw [step_brace] at h
    cases hend : codeEnd 1 none 0 t with
    | some n => rw [hend] at h; cases h
    | none =>
      rw [hend] at h
      cases h
      exact Or.inr ⟨rfl, rfl, rfl⟩
  simp only [step, stepWith, if_neg hquote, if_neg hbrace] at h
  split_ifs at h

/-- **A reading takes a piece of its text, and then stands at the end or at a step that fails.** -/
theorem exists_readsThrough (i : Nat) (m : Mode) (t : Text) :
    ∃ u rest, t = u ++ rest ∧ ReadsThrough i m u rest (run i m t).tokens (run i m t).mode ∧
      (run i m t).position = i + u.length ∧
      (rest = [] ∧ (run i m t).failure = none ∨
        ∃ c w fault, rest = c :: w ∧ step (run i m t).mode c w = .error fault ∧
          (run i m t).failure = some ⟨fault, some (i + u.length : Nat)⟩) := by
  induction i, m, t using run.induct with
  | case1 i m =>
    rw [run_nil]
    exact ⟨[], [], rfl, .nil, rfl, Or.inl ⟨rfl, rfl⟩⟩
  | case2 i m c t fault hstep =>
    rw [run, hstep]
    exact ⟨[], c :: t, rfl, .nil, rfl, Or.inr ⟨c, t, fault, rfl, hstep, rfl⟩⟩
  | case3 i m c t s hstep ih =>
    obtain ⟨w, rest, rfl, hextra, htakes⟩ := step_takes hstep
    have hlength : i + 1 + w.length = i + (c :: w).length := by rw [List.length_cons]; omega
    rw [hextra, List.drop_left, hlength] at ih
    obtain ⟨u, left, rfl, hreads, hposition, hstop⟩ := ih
    have hread := htakes.reads i
    obtain ⟨hplace, hmode⟩ := htakes.run_stop i
    rw [← List.cons_append, hread.tokens, hread.failure, hplace, hmode, hposition]
    refine ⟨(c :: w) ++ u, left, (List.append_assoc _ _ _).symm, .step htakes hreads, ?_, ?_⟩
    · rw [List.length_append, Nat.add_assoc]
    · rwa [List.length_append, ← Nat.add_assoc]

/-- **A reading fails for want of the end of a literal or a block**, at a place in its text. -/
theorem failure_within {i : Nat} {m : Mode} {t : Text} {e : MarkupError}
    (h : (run i m t).failure = some e) :
    e.fault.stage = .token ∧ ∃ p : Nat, e.position = some (p : Int) ∧ i ≤ p ∧ p < i + t.length := by
  obtain ⟨u, rest, ht, -, -, ⟨-, hnone⟩ | ⟨c, w, fault, rfl, hstep, hsome⟩⟩ :=
    exists_readsThrough i m t
  · rw [h] at hnone
    cases hnone
  · rw [h] at hsome
    cases hsome
    have hlength : t.length = u.length + (w.length + 1) := by
      rw [ht, List.length_append, List.length_cons]
    refine ⟨?_, _, rfl, by omega, by omega⟩
    obtain ⟨-, -, rfl⟩ | ⟨-, -, rfl⟩ := step_eq_error hstep
    · rfl
    · rfl

/-- A reading that does not fail is a reading of the whole text. -/
theorem readsThrough_of_ok {t : Text} {ts : List Token} (h : Token.ofText t = .ok ts) :
    ReadsThrough 0 {} t [] ts (Lexed.ofText t).mode := by
  obtain ⟨hfailure, rfl⟩ := Element.ofText_eq_ok_iff.mp h
  obtain ⟨u, rest, ht, hreads, -, ⟨rfl, -⟩ | ⟨c, w, fault, -, -, hsome⟩⟩ :=
    exists_readsThrough 0 {} t
  · rw [List.append_nil] at ht
    rwa [← ht] at hreads
  · rw [Lexed.ofText, hsome] at hfailure
    cases hfailure

/-- **A reading that starts further on differs in its places only.** -/
theorem run_moved (n i : Nat) (m : Mode) (t : Text) :
    (run (i + n) m t).tokens = (run i m t).tokens.map (Token.moved n) ∧
      (run (i + n) m t).failure = (run i m t).failure.map (MarkupError.moved n) := by
  induction i, m, t using run.induct with
  | case1 i m =>
    rw [run_nil, run_nil]
    exact ⟨rfl, rfl⟩
  | case2 i m c t fault hstep =>
    rw [run, run, hstep]
    exact ⟨rfl, rfl⟩
  | case3 i m c t s hstep ih =>
    obtain ⟨htokens, hfailure⟩ := run_of_step hstep i
    obtain ⟨htokens', hfailure'⟩ := run_of_step hstep (i + n)
    have hplaced : placed (i + n) s.token = (placed i s.token).map (Token.moved n) := by
      simp [placed, Token.moved]
    rw [show i + n + 1 + s.extra = i + 1 + s.extra + n by omega] at htokens' hfailure'
    rw [htokens, hfailure, htokens', hfailure', ih.1, ih.2, List.map_append, hplaced]
    exact ⟨rfl, rfl⟩

end Lexer

/-! ## 4. After the end of a tag -/

/-- **Behind the end of a tag a text is read as if it stood alone.**

The tokens of `a` end with the end of a tag.  Then `a ++ b` can be read exactly if `b` can, and its
tokens are those of `a` and, moved by the length of `a`, those of `b`.  If `b` cannot be read, then
for want of the end of a literal or a block, and `a ++ b` fails with the same fault at the same
place of `b`. -/
theorem ofText_append_of_tagEnd {a : Text} {ts : List Token} {last : Token}
    (ha : Token.ofText a = .ok ts) (hlast : ts.getLast? = some last)
    (hkind : last.kind = .tagEnd ∨ last.kind = .emptyTagEnd) (b : Text) :
    (Token.ofText (a ++ b)).isOk = (Token.ofText b).isOk ∧
      (∀ us, Token.ofText b = .ok us →
        Token.ofText (a ++ b) = .ok (ts ++ us.map (Token.moved a.length))) ∧
      ∀ e, Token.ofText b = .error e → e.fault.stage = .token ∧ ∃ p, e.position = some p ∧
        Token.ofText (a ++ b) = .error ⟨e.fault, some (p + a.length)⟩ := by
  have hts : ts ≠ [] := by
    rintro rfl
    cases hlast
  have hends : ∀ token ∈ ts.getLast?, token.kind = .tagEnd ∨ token.kind = .emptyTagEnd := by
    intro token htoken
    rw [hlast, Option.mem_some] at htoken
    rwa [← htoken]
  obtain ⟨hmode, hthrough⟩ :=
    (Lexer.readsThrough_of_ok ha).of_tagEnd hends (fun h => absurd h hts) b
  rw [hmode] at hthrough
  have hreads := hthrough.reads
  obtain ⟨htokens, hfailure⟩ := Lexer.run_moved a.length 0 {} b
  have hok : ∀ us, Token.ofText b = .ok us →
      Token.ofText (a ++ b) = .ok (ts ++ us.map (Token.moved a.length)) := by
    intro us hus
    obtain ⟨hnone, rfl⟩ := Element.ofText_eq_ok_iff.mp hus
    refine Element.ofText_eq_ok_iff.mpr ⟨?_, ?_⟩
    · exact hreads.failure.trans (hfailure.trans (congrArg _ hnone))
    · exact hreads.tokens.trans (congrArg _ htokens)
  have herror : ∀ e, Token.ofText b = .error e → e.fault.stage = .token ∧
      ∃ p, e.position = some p ∧
        Token.ofText (a ++ b) = .error ⟨e.fault, some (p + a.length)⟩ := by
    intro e he
    have hsome := Token.ofText_eq_error_iff.mp he
    obtain ⟨hstage, p, hp, -⟩ := Lexer.failure_within hsome
    refine ⟨hstage, p, hp, Token.ofText_eq_error_iff.mpr ?_⟩
    refine hreads.failure.trans (hfailure.trans ((congrArg _ hsome).trans ?_))
    rw [Option.map_some, MarkupError.moved, hp]
    rfl
  refine ⟨?_, hok, herror⟩
  cases hb : Token.ofText b with
  | ok us => rw [hok us hb]; rfl
  | error e =>
    obtain ⟨-, p, -, he⟩ := herror e hb
    rw [he]
    rfl

/-- The end of a closing tag with a blank behind it, before a text with a brace that is never
closed. -/
theorem ofText_append_of_tagEnd_unterminated :
    let a : Text := "<a b='>'>c > d</a> "
    let b : Text := "e \x7bf"
    let ts := (Lexed.ofText a).tokens
    Token.ofText a = .ok ts ∧ ts.getLast? = some ⟨.tagEnd, ['>'], 17⟩ ∧
      Token.ofText b = .error ⟨.unterminatedCode ['{', 'f'], some 2⟩ ∧
      Token.ofText (a ++ b) = .error ⟨.unterminatedCode ['{', 'f'], some 21⟩ := by
  intro a b ts
  have ha : Token.ofText a = .ok ts := by decide +kernel
  have hlast : ts.getLast? = some ⟨.tagEnd, ['>'], 17⟩ := by decide +kernel
  have hb : Token.ofText b = .error ⟨.unterminatedCode ['{', 'f'], some 2⟩ := by decide +kernel
  obtain ⟨-, p, hp, hab⟩ := (ofText_append_of_tagEnd ha hlast (Or.inl rfl) b).2.2 _ hb
  cases hp
  exact ⟨ha, hlast, hb, hab⟩

end InlineMarkup
