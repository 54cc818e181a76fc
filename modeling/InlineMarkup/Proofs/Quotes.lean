import InlineMarkup.Proofs.Extraction
import InlineMarkup.Proofs.WellFormed

/-!
# Quotes inside and outside of markup

Two readers follow quotes.  The search for a balancing parenthesis knows nothing of markup: every
quote opens a stretch, and the next equal quote without a backslash right before it ends the
stretch.  The reader of tokens knows more: quotes in running text are text, and in a literal a
backslash takes the next character with it, so that a literal may end in a backslash that is itself
escaped.

What the first reader makes of the quotes decides whether markup in parentheses is found at all.
Markup without parentheses of its own is one region when each of its stretches is closed
(`QuotesClosed`), and no region otherwise, though it may well be accepted as markup
(`extract_parenthesized`).  An apostrophe in running text is enough.

The two readers agree as long as running text has no quote and no quote stands right after two
backslashes.  Then the stretches are the literals and those in code, and the walk through each token
ends outside of quotes (`Lexer.Takes.quoteThrough`).
-/

namespace InlineMarkup

namespace Region

/-! ## 1. Stretches -/

/-- The quote that a walk through a text is inside of at the end of it. -/
def quoteThrough (quote : Option Char) (prev : Char) : Text → Option Char
  | [] => quote
  | c :: t => quoteThrough (quoteAfter quote prev c) c t

/-- The inside of a stretch that `q` opens and closes: a `q` in it stands right after a backslash,
and the one that closes it does not. -/
structure IsStretch (q : Char) (u : Text) : Prop where
  escaped : ∀ v w, u = v ++ q :: w → v.getLast? = some '\\'
  last : u.getLast? ≠ some '\\'

/-- Every stretch that a quote opens is closed. -/
inductive QuotesClosed : Text → Prop
  | nil : QuotesClosed []
  | plain {c : Char} {t : Text} : isQuote c = false → QuotesClosed t → QuotesClosed (c :: t)
  | stretch {q : Char} {u t : Text} : isQuote q = true → IsStretch q u → QuotesClosed t →
      QuotesClosed (q :: (u ++ q :: t))

@[simp]
theorem quoteAfter_none (prev c : Char) :
    quoteAfter none prev c = if isQuote c then some c else none := rfl

@[simp]
theorem quoteAfter_some (q prev c : Char) :
    quoteAfter (some q) prev c = if c = q ∧ prev ≠ '\\' then none else some q := rfl

/-- Outside of quotes it does not matter which character stands before. -/
theorem quoteThrough_none (prev prev' : Char) (t : Text) :
    quoteThrough none prev t = quoteThrough none prev' t := by
  cases t with
  | nil => rfl
  | cons c t => rfl

/-- A walk through a text that ends outside of quotes goes on from there. -/
theorem quoteThrough_append {a : Text} (b : Text) : ∀ {quote : Option Char} {prev : Char},
    quoteThrough quote prev a = none →
    quoteThrough quote prev (a ++ b) = quoteThrough none ' ' b := by
  induction a with
  | nil =>
    intro quote prev h
    rw [quoteThrough] at h
    rw [List.nil_append, h]
    exact quoteThrough_none prev ' ' b
  | cons c a ih =>
    intro quote prev h
    exact ih h

theorem quoteThrough_of_plain {t : Text} (h : ∀ c ∈ t, isQuote c = false) (prev : Char) :
    quoteThrough none prev t = none := by
  induction t generalizing prev with
  | nil => rfl
  | cons c t ih =>
    rw [quoteThrough, quoteAfter_none, h c List.mem_cons_self]
    exact ih (fun d hd => h d (List.mem_cons_of_mem c hd)) c

/-- A walk that is inside of quotes ends them at the first equal quote without a backslash before
it. -/
theorem quoteThrough_quoted {q : Char} (t : Text) : ∀ {u : Text} {prev : Char},
    (∀ v w, u = v ++ q :: w → v.getLast?.getD prev = '\\') → u.getLast?.getD prev ≠ '\\' →
    quoteThrough (some q) prev (u ++ q :: t) = quoteThrough none q t := by
  intro u
  induction u with
  | nil =>
    intro prev _ hlast
    simp only [List.getLast?_nil, Option.getD_none] at hlast
    simp [quoteThrough, hlast]
  | cons c u ih =>
    intro prev hescaped hlast
    have hstay : quoteAfter (some q) prev c = some q := by
      rw [quoteAfter_some, if_neg]
      rintro ⟨rfl, hprev⟩
      exact hprev (hescaped [] u rfl)
    rw [List.cons_append, quoteThrough, hstay]
    refine ih ?_ ?_
    · rintro v w rfl
      have h := hescaped (c :: v) w rfl
      rwa [List.getLast?_cons] at h
    · rwa [List.getLast?_cons] at hlast

/-- ...and if it ends them at all, there is such a quote. -/
theorem exists_stretch {q : Char} : ∀ {t : Text} {prev : Char},
    quoteThrough (some q) prev t = none →
    ∃ u rest, t = u ++ q :: rest ∧ (∀ v w, u = v ++ q :: w → v.getLast?.getD prev = '\\') ∧
      u.getLast?.getD prev ≠ '\\' ∧ quoteThrough none q rest = none := by
  intro t
  induction t with
  | nil =>
    intro prev h
    cases h
  | cons c t ih =>
    intro prev h
    rw [quoteThrough, quoteAfter_some] at h
    by_cases hc : c = q ∧ prev ≠ '\\'
    · rw [if_pos hc] at h
      obtain ⟨rfl, hprev⟩ := hc
      refine ⟨[], t, rfl, ?_, by simpa using hprev, h⟩
      intro v w hv
      cases v <;> cases hv
    · rw [if_neg hc] at h
      obtain ⟨u, rest, rfl, hescaped, hlast, hrest⟩ := ih h
      refine ⟨c :: u, rest, rfl, ?_, by rwa [List.getLast?_cons], hrest⟩
      intro v w hv
      cases v with
      | nil =>
        have hq : c = q := (List.cons.inj hv).1
        simpa [hq] using hc
      | cons x v =>
        obtain ⟨rfl, rfl⟩ := List.cons.inj hv
        rw [List.getLast?_cons]
        exact hescaped v w rfl

/-- At the start of a stretch the quote that opens it stands before. -/
theorem isStretch_iff {q : Char} (hq : isQuote q = true) {u : Text} : IsStretch q u ↔
    (∀ v w, u = v ++ q :: w → v.getLast?.getD q = '\\') ∧ u.getLast?.getD q ≠ '\\' := by
  have hne : q ≠ '\\' := Literal.ne_of_isQuote hq rfl
  have hget : ∀ o : Option Char, o.getD q = '\\' ↔ o = some '\\' := by
    intro o
    cases o with
    | none => simp [hne]
    | some c => simp
  constructor
  · intro h
    exact ⟨fun v w hv => (hget _).mpr (h.escaped v w hv), fun h' => h.last ((hget _).mp h')⟩
  · rintro ⟨hescaped, hlast⟩
    exact ⟨fun v w hv => (hget _).mp (hescaped v w hv), fun h' => hlast ((hget _).mpr h')⟩

theorem quotesClosed_of_quoteThrough : ∀ (n : Nat) (t : Text), t.length ≤ n →
    quoteThrough none ' ' t = none → QuotesClosed t := by
  intro n
  induction n with
  | zero =>
    intro t hlen _
    rw [List.length_eq_zero_iff.mp (Nat.le_zero.mp hlen)]
    exact .nil
  | succ n ih =>
    intro t hlen h
    cases t with
    | nil => exact .nil
    | cons c t =>
      rw [List.length_cons] at hlen
      rw [quoteThrough, quoteAfter_none] at h
      cases hc : isQuote c with
      | false =>
        rw [hc, if_neg Bool.false_ne_true, quoteThrough_none c ' '] at h
        exact .plain hc (ih t (by omega) h)
      | true =>
        rw [hc, if_pos rfl] at h
        obtain ⟨u, rest, rfl, hescaped, hlast, hrest⟩ := exists_stretch h
        rw [quoteThrough_none c ' '] at hrest
        simp only [List.length_append, List.length_cons] at hlen
        exact .stretch hc ((isStretch_iff hc).mpr ⟨hescaped, hlast⟩) (ih rest (by omega) hrest)

/-- **A walk ends outside of quotes exactly when every stretch is closed.** -/
theorem quotesClosed_iff {t : Text} : QuotesClosed t ↔ quoteThrough none ' ' t = none := by
  constructor
  · intro h
    induction h with
    | nil => rfl
    | @plain c t hc _ ih =>
      rw [quoteThrough, quoteAfter_none, hc]
      exact (quoteThrough_none c ' ' t).trans ih
    | @stretch q u t hq hu _ ih =>
      obtain ⟨hescaped, hlast⟩ := (isStretch_iff hq).mp hu
      rw [quoteThrough, quoteAfter_none, if_pos hq, quoteThrough_quoted t hescaped hlast,
        quoteThrough_none q ' ', ih]
  · exact quotesClosed_of_quoteThrough t.length t (Nat.le_refl _)

/-! ## 2. Markup in parentheses -/

/-- The region that a whole text in parentheses is, when nothing in it is trimmed. -/
def parenthesized (m : Text) : Region where
  expression := '(' :: (m ++ [')'])
  content := m
  start := 0
  stop := m.length + 1

/-- In a text without parentheses the quotes alone decide whether the parenthesis after it is the
balancing one. -/
theorem closeFrom_of_noParens {m : Text} (hopen : '(' ∉ m) (hclose : ')' ∉ m) :
    ∀ (i : Nat) (quote : Option Char) (prev : Char), closeFrom i quote prev 0 (m ++ [')']) =
      if quoteThrough quote prev m = none then some (i + m.length) else none := by
  induction m with
  | nil =>
    intro i quote prev
    cases quote with
    | none => rfl
    | some q => simp [closeFrom_cons, quoteThrough, closeFrom]
  | cons c m ih =>
    intro i quote prev
    rw [List.mem_cons, not_or] at hopen hclose
    rw [List.cons_append, closeFrom_cons, if_neg (fun h => hopen.1 h.2.symm),
      if_neg (fun h => hclose.1 h.2.symm), ih hopen.2 hclose.2, quoteThrough, List.length_cons,
      Nat.add_right_comm, Nat.add_assoc]

/-- A walk over a text without an opening parenthesis finds no region. -/
theorem scanFrom_of_noOpening {t : Text} (h : '(' ∉ t) (i : Nat) : Finding.scanFrom i t = [] := by
  induction t generalizing i with
  | nil => rw [Finding.scanFrom]
  | cons c t ih =>
    have hc : c ≠ '(' := fun hc => h (by rw [hc]; exact List.mem_cons_self)
    rw [Finding.scanFrom, if_neg (fun hopen => hc hopen.1)]
    exact ih (fun ht => h (List.mem_cons_of_mem c ht)) (i + 1)

/-- **Text in parentheses is one region or none**, if it starts like markup, has no blank at its
ends and no parenthesis in it. -/
theorem extract_parenthesized {m : Text} (hhead : m.head? = some '<') (hsolid : Text.Solid m)
    (hopen : '(' ∉ m) (hclose : ')' ∉ m) :
    (QuotesClosed m → extract ('(' :: (m ++ [')'])) = [parenthesized m]) ∧
      (¬ QuotesClosed m → extract ('(' :: (m ++ [')'])) = []) := by
  have hopens : opensMarkup (m ++ [')']) = true := by
    obtain ⟨v, rfl⟩ : ∃ v, m = '<' :: v := List.head?_eq_some_iff.mp hhead
    exact opensMarkup_iff.mpr ⟨[], v ++ [')'], fun c hc => absurd hc List.not_mem_nil, rfl⟩
  have hsearch := closeFrom_of_noParens hopen hclose 0 none ' '
  rw [Nat.zero_add] at hsearch
  constructor
  · intro hclosed
    have hsize : closeIn (m ++ [')']) = some m.length := by
      rw [closeIn, hsearch, if_pos (quotesClosed_iff.mp hclosed)]
    have hend : (m ++ [')']).drop (m.length + 1) = [] := List.drop_eq_nil_of_le (by simp)
    have hbuild : build 0 (m ++ [')']) m.length = parenthesized m := by
      simp [build, parenthesized, Text.trim_of_solid hsolid, List.take_of_length_le]
    rw [extract, Finding.scan, Finding.scanFrom, if_pos ⟨rfl, hopens⟩, hsize]
    dsimp only
    rewrite [hend, hbuild, Finding.scanFrom]
    rfl
  · intro hunclosed
    have hnone : closeIn (m ++ [')']) = none := by
      rw [closeIn, hsearch, if_neg (fun h => hunclosed (quotesClosed_iff.mpr h))]
    have hno : '(' ∉ m ++ [')'] := by
      intro h
      rcases List.mem_append.mp h with h | h
      · exact hopen h
      · simp at h
    rw [extract, Finding.scan, Finding.scanFrom, if_pos ⟨rfl, hopens⟩, hnone]
    dsimp only
    rewrite [scanFrom_of_noOpening hno]
    rfl

/-! ## 3. The quotes of tokens -/

/-- No quote stands right after two backslashes. -/
def NoPairBeforeQuote (t : Text) : Prop := ∀ q, isQuote q = true → ¬ ['\\', '\\', q] <:+: t

theorem NoPairBeforeQuote.of_cons {c : Char} {t : Text} (h : NoPairBeforeQuote (c :: t)) :
    NoPairBeforeQuote t :=
  fun q hq hin => h q hq (List.infix_cons hin)

/-- After an escaped backslash comes no quote. -/
theorem NoPairBeforeQuote.head {c : Char} {t : Text} (h : NoPairBeforeQuote ('\\' :: c :: t))
    (hc : c = '\\') : ∀ d ∈ t.head?, isQuote d = false := by
  intro d hd
  obtain ⟨v, rfl⟩ : ∃ v, t = d :: v := List.head?_eq_some_iff.mp hd
  by_contra hq
  rw [Bool.not_eq_false] at hq
  refine h d hq ?_
  rw [hc]
  exact List.IsPrefix.isInfix ⟨v, rfl⟩

/-- A backslash leaves a walk inside of its quotes, and so does what it takes with it. -/
theorem quoteThrough_escape {q : Char} (hq : isQuote q = true) (prev c : Char) (t : Text) :
    quoteThrough (some q) prev ('\\' :: c :: t) = quoteThrough (some q) c t := by
  have hne : '\\' ≠ q := (Literal.ne_of_isQuote hq rfl).symm
  simp [quoteThrough, hne]

/-- The end of a text is that of what follows its head. -/
theorem end_of_cons {o : Option Nat} {i : Nat} {c : Char} {t : Text}
    (h : o = some (i + (c :: t).length)) : o = some (i + 1 + t.length) := by
  rw [h, List.length_cons, Nat.add_right_comm, Nat.add_assoc]

/-- **A walk through a literal ends where the literal does.**  `t` is what follows the opening
quote.  Where the walk stands after a backslash although nothing is escaped, the backslash was
escaped itself, and then no quote follows. -/
theorem quoteThrough_stringEnd {q : Char} (hq : isQuote q = true) (i : Nat) (t : Text) :
    ∀ prev, Literal.stringEnd q i t = some (i + t.length) → NoPairBeforeQuote t →
      (prev = '\\' → ∀ d ∈ t.head?, isQuote d = false) → quoteThrough (some q) prev t = none := by
  induction i, t using Literal.stringEnd.induct q with
  | case1 i =>
    intro prev h
    cases h
  | case2 i =>
    intro prev h
    cases h
  | case3 i c t ih =>
    intro prev h hpair _
    rw [Literal.stringEnd, if_pos rfl] at h
    rw [quoteThrough_escape hq]
    exact ih c (end_of_cons (end_of_cons h)) hpair.of_cons.of_cons hpair.head
  | case4 i t hne =>
    intro prev h _ hprev
    rw [Literal.stringEnd_cons i t hne, if_pos rfl, Option.some.injEq, List.length_cons] at h
    have hnil : t = [] := List.length_eq_zero_iff.mp (by omega)
    have hplain : prev ≠ '\\' := by
      intro hp
      have := hprev hp q rfl
      rw [hq] at this
      cases this
    simp [hnil, quoteThrough, hplain]
  | case5 i c t hne hc ih =>
    intro prev h hpair _
    rw [Literal.stringEnd_cons i t hne, if_neg hc] at h
    rw [quoteThrough, quoteAfter_some, if_neg (fun h => hc h.1)]
    exact ih c (end_of_cons h) hpair.of_cons (fun h => absurd h hne)

/-- **A walk through a block follows its quotes** and ends with the block, outside of them. -/
theorem quoteThrough_codeEnd (depth : Int) (quote : Option Char) (i : Nat) (t : Text) :
    ∀ prev, (∀ q ∈ quote, isQuote q = true) →
      Literal.codeEnd depth quote i t = some (i + t.length) → NoPairBeforeQuote t →
      (quote ≠ none → prev = '\\' → ∀ d ∈ t.head?, isQuote d = false) →
      quoteThrough quote prev t = none := by
  induction depth, quote, i, t using Literal.codeEnd.induct with
  | case1 depth quote i =>
    intro prev _ h
    cases h
  | case2 depth i q =>
    intro prev _ h
    cases h
  | case3 depth i q c t ih =>
    intro prev hquote h hpair _
    rw [Literal.codeEnd, if_pos rfl] at h
    rw [quoteThrough_escape (hquote q rfl)]
    exact ih c hquote (end_of_cons (end_of_cons h)) hpair.of_cons.of_cons (fun _ => hpair.head)
  | case4 depth i c t q hne ih =>
    intro prev hquote h hpair hprev
    rw [Literal.codeEnd_quoted depth i t hne] at h
    have hstep : quoteAfter (some q) prev c = if c = q then none else some q := by
      rw [quoteAfter_some]
      by_cases hc : c = q
      · have hplain : prev ≠ '\\' := by
          intro hp
          have := hprev (Option.some_ne_none q) hp c rfl
          rw [hc, hquote q rfl] at this
          cases this
        rw [if_pos ⟨hc, hplain⟩, if_pos hc]
      · rw [if_neg (fun h => hc h.1), if_neg hc]
    rw [quoteThrough, hstep]
    refine ih c ?_ (end_of_cons h) hpair.of_cons (fun _ h => absurd h hne)
    intro x hx
    split at hx
    · cases hx
    · exact hquote x hx
  | case5 depth i c t hc ih =>
    intro prev _ h hpair _
    rw [Literal.codeEnd, if_pos hc] at h
    rw [quoteThrough, quoteAfter_none, if_pos hc]
    refine ih c ?_ (end_of_cons h) hpair.of_cons
      (fun _ h => absurd h (Literal.ne_of_isQuote hc rfl))
    intro x hx
    rwa [← Option.some.inj hx]
  | case6 depth i t hc ih =>
    intro prev hquote h hpair _
    rw [Literal.codeEnd, if_neg hc, if_pos rfl] at h
    rw [quoteThrough, quoteAfter_none, if_neg hc]
    exact ih '{' hquote (end_of_cons h) hpair.of_cons (fun h => absurd rfl h)
  | case7 i t hc hb =>
    intro prev _ h _ _
    rw [Literal.codeEnd, if_neg hc, if_neg hb, if_pos rfl, if_pos rfl, Option.some.injEq,
      List.length_cons] at h
    have hnil : t = [] := List.length_eq_zero_iff.mp (by omega)
    rw [hnil, quoteThrough, quoteAfter_none, if_neg hc]
    rfl
  | case8 depth i t hd hc hb ih =>
    intro prev hquote h hpair _
    rw [Literal.codeEnd, if_neg hc, if_neg hb, if_pos rfl, if_neg hd] at h
    rw [quoteThrough, quoteAfter_none, if_neg hc]
    exact ih '}' hquote (end_of_cons h) hpair.of_cons (fun h => absurd rfl h)
  | case9 depth i c t hc hb he ih =>
    intro prev hquote h hpair _
    rw [Literal.codeEnd, if_neg hc, if_neg hb, if_neg he] at h
    rw [quoteThrough, quoteAfter_none, if_neg hc]
    exact ih c hquote (end_of_cons h) hpair.of_cons (fun h => absurd rfl h)

end Region

open Region

/-- The quotes in a token's characters are those of a literal or of code, and none of them stands
right after two backslashes. -/
def Token.Kind.QuotesAgree : Token.Kind → Text → Prop
  | .text, t => ∀ c ∈ t, isQuote c = false
  | .string, t | .code, t => NoPairBeforeQuote t
  | _, _ => True

namespace Lexer

theorem isQuote_of_isName {t : Text} (h : IsName t) : ∀ c ∈ t, isQuote c = false := by
  have hpart : ∀ c, Literal.isNamePart c = true → isQuote c = false := by
    intro c hc
    by_contra hq
    simp only [isQuote, Bool.not_eq_false, Bool.or_eq_true, beq_iff_eq] at hq
    rcases hq with rfl | rfl
    · exact absurd hc (by decide)
    · exact absurd hc (by decide)
  obtain ⟨c, rest, rfl, hc, hrest⟩ := h
  intro d hd
  rcases List.mem_cons.mp hd with rfl | hd
  · exact hpart d (Text.isNamePart_of_isNameStart hc)
  · exact hpart d (hrest d hd)

/-- **A walk through what a step takes ends outside of quotes.** -/
theorem Takes.quoteThrough {m m' : Mode} {p rest : Text} {token : Option (Token.Kind × Text)}
    (h : Takes m p rest token m') (hagree : ∀ t ∈ token, t.1.QuotesAgree t.2) (prev : Char) :
    Region.quoteThrough none prev p = none := by
  cases h with
  | @blank c _ hc =>
    refine quoteThrough_of_plain ?_ prev
    intro d hd
    rw [List.mem_singleton.mp hd]
    exact Literal.isQuote_of_isBlank hc
  | closing | opening | tagEnd | emptyTagEnd | equals => rfl
  | string hs =>
    have hpair : NoPairBeforeQuote p := hagree (.string, p) rfl
    obtain ⟨q, u, hq, rfl, hu⟩ := isString_iff.mp hs
    rw [Region.quoteThrough, quoteAfter_none, if_pos hq]
    refine quoteThrough_stringEnd hq 0 _ q ?_ hpair.of_cons
      (fun h => absurd h (Literal.ne_of_isQuote hq rfl))
    rw [hu 0 [], List.length_append]
    rfl
  | @code u _ hu =>
    have hpair : NoPairBeforeQuote ('{' :: (u ++ ['}'])) := hagree (.code, _) rfl
    refine quoteThrough_codeEnd 1 none 0 _ '{' (fun q hq => by cases hq) ?_ hpair.of_cons
      (fun h => absurd rfl h)
    rw [hu 0 [], List.length_append]
    rfl
  | tagName hn _ _ => exact quoteThrough_of_plain (isQuote_of_isName hn) prev
  | propName hn _ _ _ => exact quoteThrough_of_plain (isQuote_of_isName hn) prev
  | @stray c _ hp _ _ =>
    refine quoteThrough_of_plain ?_ prev
    intro d hd
    rw [List.mem_singleton.mp hd]
    exact hp.notQuote
  | @text c w _ hp _ _ hw _ =>
    have hplain : ∀ d ∈ Text.trim (c :: w), isQuote d = false := hagree (.text, _) rfl
    obtain ⟨a, b, ha, hb, heq, -⟩ := Text.trim_spec (c :: w)
    refine quoteThrough_of_plain ?_ prev
    intro d hd
    rw [heq] at hd
    rcases List.mem_append.mp hd with hd | hd
    · exact Literal.isQuote_of_isBlank (ha d hd)
    · rcases List.mem_append.mp hd with hd | hd
      · exact hplain d hd
      · exact Literal.isQuote_of_isBlank (hb d hd)

/-- A reading without failure is over texts whose stretches are closed, if the tokens agree. -/
theorem quoteThrough_run (i : Nat) (m : Mode) (t : Text) (hf : (run i m t).failure = none)
    (hagree : ∀ token ∈ (run i m t).tokens, token.kind.QuotesAgree token.lexeme) :
    Region.quoteThrough none ' ' t = none := by
  induction i, m, t using run.induct with
  | case1 i m => rfl
  | case2 i m c t fault h =>
    rw [run, h] at hf
    cases hf
  | case3 i m c t s h ih =>
    obtain ⟨htokens, hfailure⟩ := run_of_step h i
    obtain ⟨w, rest, rfl, hextra, htakes⟩ := step_takes h
    rw [hextra, List.drop_left] at htokens hfailure ih
    rw [htokens] at hagree
    have hfirst := htakes.quoteThrough (fun tok htok => hagree ⟨tok.1, tok.2, i⟩
      (List.mem_append_left _ (List.mem_map_of_mem (Option.mem_toList.mpr htok)))) ' '
    rw [← List.cons_append, quoteThrough_append rest hfirst]
    exact ih (hfailure ▸ hf) (fun token h => hagree token (List.mem_append_right _ h))

/-- Outside of a tag, a step at a character that is not blank yields a token, and only at `<` one
that opens a tag. -/
theorem Takes.opening_of_token {p rest : Text} {token : Option (Token.Kind × Text)} {m' : Mode}
    (h : Takes {} p rest token m') (hp : ∀ c ∈ p.head?, Text.isBlank c = false) :
    ∃ k l, token = some (k, l) ∧ (k = .opening → p.head? = some '<') := by
  cases h with
  | @blank c _ hc =>
    rw [hp c rfl] at hc
    cases hc
  | opening _ => exact ⟨_, _, rfl, fun _ => rfl⟩
  | closing | tagEnd | emptyTagEnd | equals | string _ | code _ | text _ _ _ _ _ =>
    exact ⟨_, _, rfl, fun h => by cases h⟩
  | tagName _ he _ => cases he
  | propName _ _ ha _ => cases ha
  | stray _ _ ha => cases ha

/-- Markup whose first token opens a tag starts with `<`, if it does not start with a blank. -/
theorem head_of_opening {t : Text} (ht : ∀ c ∈ t.head?, Text.isBlank c = false) {first : Token}
    {ts : List Token} (hts : (run 0 {} t).tokens = first :: ts) (hkind : first.kind = .opening) :
    t.head? = some '<' := by
  cases t with
  | nil =>
    rw [run_nil] at hts
    cases hts
  | cons c t =>
    cases hstep : step {} c t with
    | error fault =>
      rw [run_of_error hstep] at hts
      cases hts
    | ok s =>
      obtain ⟨w, rest, rfl, -, htakes⟩ := step_takes hstep
      obtain ⟨k, l, htoken, hhead⟩ := htakes.opening_of_token ht
      rw [(run_of_step hstep 0).1, htoken] at hts
      have hfirst : first = ⟨k, l, 0⟩ := (List.cons.inj hts).1.symm
      rw [hfirst] at hkind
      exact hhead hkind

end Lexer

/-! ## 4. Accepted markup -/

namespace Element

theorem isOk_ofMarkup_iff {m : Text} :
    (ofMarkup m).isOk = true ↔ ∃ e, ofMarkup m = .ok e := by
  cases ofMarkup m with
  | ok e => simp [Except.isOk, Except.toBool]
  | error e => simp [Except.isOk, Except.toBool]

end Element

/-- **Accepted markup in parentheses is found when its quotes are closed**, and otherwise not at
all.

The markup has no blank at its ends and no parenthesis in it.  In parentheses it is a single region
with just this content if each stretch that a quote opens is closed by an equal quote without a
backslash right before it, and there is no region if one is not.  The stretches are closed whenever
the quotes of the markup are all in literals and code and none of them stands right after two
backslashes. -/
theorem extract_accepted_markup (m : Text) (hm : (Element.ofMarkup m).isOk = true)
    (htrim : Text.trim m = m) (hopen : '(' ∉ m) (hclose : ')' ∉ m) :
    (QuotesClosed m → extract ('(' :: (m ++ [')'])) = [parenthesized m]) ∧
      (¬ QuotesClosed m → extract ('(' :: (m ++ [')'])) = []) ∧
      ((∀ token ∈ (Lexed.ofText m).tokens, token.kind.QuotesAgree token.lexeme) →
        QuotesClosed m) := by
  obtain ⟨e, he⟩ := Element.isOk_ofMarkup_iff.mp hm
  obtain ⟨hfailure, hspells⟩ := Element.ofMarkup_eq_ok_iff.mp he
  have hsolid := Text.trim_eq_self_iff.mp htrim
  obtain ⟨first, ts, hts, hkind⟩ := hspells.exists_cons
  have hhead := Lexer.head_of_opening hsolid.head hts hkind
  obtain ⟨hfound, hnone⟩ := extract_parenthesized hhead hsolid hopen hclose
  exact ⟨hfound, hnone, fun hagree =>
    quotesClosed_iff.mpr (Lexer.quoteThrough_run 0 {} m hfailure hagree)⟩

/-- An escaped quote and one of the other kind in a literal, and a pair of quotes in running
text. -/
theorem extract_accepted_markup_quotes :
    let m : Text := "<a b=\"\\\"'\">c \"d\"</a>"
    (Element.ofMarkup m).isOk = true ∧ Text.trim m = m ∧ '(' ∉ m ∧ ')' ∉ m ∧
      extract ('(' :: (m ++ [')'])) = [parenthesized m] := by
  intro m
  have hm : (Element.ofMarkup m).isOk = true := by decide +kernel
  have htrim : Text.trim m = m := by decide +kernel
  have hopen : '(' ∉ m := by decide +kernel
  have hclose : ')' ∉ m := by decide +kernel
  have hclosed : QuotesClosed m := quotesClosed_iff.mpr (by decide +kernel)
  exact ⟨hm, htrim, hopen, hclose, (extract_accepted_markup m hm htrim hopen hclose).1 hclosed⟩

/-- **Accepted markup may be passed over**: an apostrophe in running text opens a stretch that
nothing closes. -/
theorem extract_passes_over_apostrophe :
    let m : Text := "<a>it's</a>"
    (Element.ofMarkup m).isOk = true ∧ Text.trim m = m ∧ '(' ∉ m ∧ ')' ∉ m ∧
      extract ('(' :: (m ++ [')'])) = [] := by
  decide +kernel

end InlineMarkup
