import InlineMarkup.Proofs.Literals
import InlineMarkup.Token.Lexer

/-!
# What a token's characters look like

The kind of a token says what its characters are: a mark is one of the five marks, a name is a
name, a quoted literal is closed by its last character and by no earlier one, and so is a block
(`Token.Kind.Admits`).  Running text starts where no other token can, goes on to the next tag or
block, and has no blank at its ends (`IsRunningText`).

Every token of a reading is of its kind's form, whatever the text and the mode the reading starts
in (`run_formed`).  All that a step can do is said once (`Takes`); that the token of a step is of
its form, and its characters among those the step takes, is read off there (`Takes.admits`).

The last section turns to texts put together from pieces.  `Reads` says what reading a piece does
when something follows it; two such facts compose (`Reads.append`), which is how a printed element
is read back piece by piece.
-/

namespace InlineMarkup

open Literal

/-! ## 1. Forms -/

/-- A name: a letter or an underscore, then letters, numbers, underscores and hyphens. -/
def IsName (t : Text) : Prop :=
  ∃ c rest, t = c :: rest ∧ isNameStart c = true ∧ ∀ d ∈ rest, isNamePart d = true

/-- A quoted literal: it starts with a quote, and is read to its own end. -/
structure IsString (t : Text) : Prop where
  quoted : ∃ q rest, t = q :: rest ∧ isQuote q = true
  whole : stringLength? t = some t.length

/-- The code of a block: no blanks at its ends, and in braces it is read to its own end. -/
structure IsCode (t : Text) : Prop where
  trimmed : Text.trim t = t
  whole : codeLength? ('{' :: (t ++ ['}'])) = some (t.length + 2)

/-- Running text: not empty, no blanks at its ends, no start of a tag or a block in it, and at
its head nothing that would be read as another token. -/
structure IsRunningText (t : Text) : Prop where
  ne_nil : t ≠ []
  trimmed : Text.trim t = t
  noTag : '<' ∉ t
  noBlock : '{' ∉ t
  head : ∀ c ∈ t.head?, c ≠ '>' ∧ c ≠ '=' ∧ isQuote c = false
  noEmptyTagEnd : ¬ ['/', '>'] <+: t

/-- The texts that the tokens of a kind have. -/
def Token.Kind.Admits : Token.Kind → Text → Prop
  | .opening, t => t = ['<']
  | .closing, t => t = ['<', '/']
  | .tagEnd, t => t = ['>']
  | .emptyTagEnd, t => t = ['/', '>']
  | .equals, t => t = ['=']
  | .tagName, t => IsName t
  | .propName, t => IsName t
  | .string, t => IsString t
  | .code, t => ∃ u, t = '{' :: (u ++ ['}']) ∧ Closes u
  | .text, t => IsRunningText t

/-- A token is of its kind's form. -/
def Token.IsFormed (token : Token) : Prop := token.kind.Admits token.lexeme

theorem isString_iff {t : Text} : IsString t ↔ ∃ q u, isQuote q = true ∧ t = q :: (u ++ [q]) ∧
    ∀ j rest, stringEnd q j (u ++ q :: rest) = some (j + u.length + 1) := by
  constructor
  · rintro ⟨⟨q, rest, rfl, hq⟩, hw⟩
    obtain ⟨u, v, rfl, hlen, hu⟩ := stringEnd_split hw
    simp only [List.length_cons, List.length_append] at hlen
    have hv : v = [] := List.length_eq_zero_iff.mp (by omega)
    exact ⟨q, u, hq, by rw [hv], hu⟩
  · rintro ⟨q, u, hq, rfl, hu⟩
    refine ⟨⟨q, _, rfl, hq⟩, ?_⟩
    rw [stringLength?, hu 1 []]
    simp only [List.length_cons, List.length_append, List.length_nil, Option.some.injEq]
    omega

theorem codeLength?_block (t : Text) : codeLength? ('{' :: t) = codeEnd 1 none 1 t := by
  rw [codeLength?, codeEnd, if_neg (by decide), if_pos rfl]
  rfl

theorem isCode_iff {t : Text} : IsCode t ↔ Text.trim t = t ∧ Closes t := by
  constructor
  · rintro ⟨ht, hw⟩
    refine ⟨ht, closes_of_codeEnd (i := 1) (v := []) ?_⟩
    rw [← codeLength?_block, hw, Option.some.injEq]
    omega
  · rintro ⟨ht, hc⟩
    refine ⟨ht, ?_⟩
    rw [codeLength?_block, hc 1 [], Option.some.injEq]
    omega

theorem isCode_trim {u : Text} (h : Closes u) : IsCode (Text.trim u) :=
  isCode_iff.mpr ⟨Text.trim_trim u, h.trim⟩

/-- Trimming a text that starts with a non-blank leaves its head in place. -/
theorem trim_cons_of_not_blank {c : Char} (hc : Text.isBlank c = false) (w : Text) :
    ∃ v b, Text.trim (c :: w) = c :: v ∧ w = v ++ b := by
  obtain ⟨a, b, ha, hb, heq, -⟩ := Text.trim_spec (c :: w)
  cases a with
  | cons x a =>
    rw [List.cons_append, List.cons.injEq] at heq
    have := ha x List.mem_cons_self
    rw [← heq.1, hc] at this
    exact absurd this (by decide)
  | nil =>
    cases ht : Text.trim (c :: w) with
    | nil =>
      rw [ht] at heq
      have := hb c (by rw [List.nil_append, List.nil_append] at heq; rw [← heq]; simp)
      rw [hc] at this
      exact absurd this (by decide)
    | cons x v =>
      rw [ht, List.nil_append, List.cons_append, List.cons.injEq] at heq
      exact ⟨v, b, by rw [heq.1], heq.2⟩

/-! ## 2. One step -/

namespace Lexer

/-- The character, before `next`, is not blank and starts no mark, literal or block: it can only
belong to a name or to running text, or be a stray. -/
structure Plain (c : Char) (next : Option Char) : Prop where
  notBlank : Text.isBlank c = false
  notTag : c ≠ '<'
  notTagEnd : c ≠ '>'
  notEmptyTagEnd : ¬ (c = '/' ∧ next = some '>')
  notEquals : c ≠ '='
  notQuote : isQuote c = false
  notBlock : c ≠ '{'

/-- **All that a step of the reader can do.**  `Takes m p rest token m'`: in mode `m`, at the piece
`p` before `rest`, the reader takes the piece, yields the token, if any, and is then in mode
`m'`. -/
inductive Takes : Mode → Text → Text → Option (Token.Kind × Text) → Mode → Prop
  | blank {m : Mode} {c : Char} {rest : Text} : Text.isBlank c = true →
      Takes m [c] rest none m
  | closing {m : Mode} {rest : Text} :
      Takes m ['<', '/'] rest (some (.closing, ['<', '/'])) { m with expectTagName := true }
  | opening {m : Mode} {rest : Text} : rest.head? ≠ some '/' →
      Takes m ['<'] rest (some (.opening, ['<'])) { m with expectTagName := true }
  | tagEnd {m : Mode} {rest : Text} : Takes m ['>'] rest (some (.tagEnd, ['>'])) .outside
  | emptyTagEnd {m : Mode} {rest : Text} :
      Takes m ['/', '>'] rest (some (.emptyTagEnd, ['/', '>'])) .outside
  | equals {m : Mode} {rest : Text} : Takes m ['='] rest (some (.equals, ['='])) m
  | string {m : Mode} {t rest : Text} : IsString t → Takes m t rest (some (.string, t)) m
  | code {m : Mode} {u rest : Text} : Closes u →
      Takes m ('{' :: (u ++ ['}'])) rest (some (.code, '{' :: (u ++ ['}']))) m
  | tagName {m : Mode} {t rest : Text} : IsName t → m.expectTagName = true →
      (∀ d ∈ rest.head?, isNamePart d = false) →
      Takes m t rest (some (.tagName, t)) { expectTagName := false, inAttributes := true }
  | propName {m : Mode} {t rest : Text} : IsName t → m.expectTagName = false →
      m.inAttributes = true → (∀ d ∈ rest.head?, isNamePart d = false) →
      Takes m t rest (some (.propName, t)) m
  | stray {m : Mode} {c : Char} {rest : Text} : Plain c rest.head? → isNameStart c = false →
      m.inAttributes = true → Takes m [c] rest none m
  | text {m : Mode} {c : Char} {w rest : Text} : Plain c (w ++ rest).head? →
      (isNameStart c = false ∨ m.expectTagName = false) → m.inAttributes = false →
      (∀ d ∈ w, isTextPart d = true) → (∀ d ∈ rest.head?, isTextPart d = false) →
      Takes m (c :: w) rest (some (.text, Text.trim (c :: w))) m

/-- A stretch of characters of one class and what follows it, as the reader cuts them. -/
theorem exists_takeWhile (p : Char → Bool) (t : Text) :
    ∃ w rest, t = w ++ rest ∧ (t.takeWhile p).length = w.length ∧ (∀ d ∈ w, p d = true) ∧
      ∀ d ∈ rest.head?, p d = false := by
  refine ⟨t.takeWhile p, t.dropWhile p, List.takeWhile_append_dropWhile.symm, rfl,
    fun d hd => List.mem_takeWhile_imp hd, fun d hd => ?_⟩
  have := List.head?_dropWhile_not p t
  rw [Option.mem_def.mp hd] at this
  simpa using this

/-- ...and the cut is the only one of its kind. -/
theorem length_takeWhile_append {p : Char → Bool} {w rest : Text} (hw : ∀ d ∈ w, p d = true)
    (hr : ∀ d ∈ rest.head?, p d = false) : ((w ++ rest).takeWhile p).length = w.length := by
  rw [List.takeWhile_append_of_pos hw]
  cases rest with
  | nil => simp
  | cons d rest =>
    rw [List.takeWhile_cons, hr d (by simp)]
    simp

theorem take_through (u v : Text) (c : Char) : (u ++ c :: v).take (u.length + 1) = u ++ [c] := by
  rw [show u ++ c :: v = (u ++ [c]) ++ v by simp]
  exact List.take_left' (by simp)

/-- At a plain character a step comes down to the two name branches, strays and running text. -/
theorem step_plain {m : Mode} {c : Char} {t : Text} (h : Plain c t.head?) :
    step m c t =
      if isNameStart c && (m.expectTagName || m.inAttributes) then
        if m.expectTagName then
          .ok { extra := nameLength t, mode := { expectTagName := false, inAttributes := true },
                token := some (.tagName, c :: t.take (nameLength t)) }
        else
          .ok { extra := nameLength t, mode := m,
                token := some (.propName, c :: t.take (nameLength t)) }
      else if m.inAttributes then .ok { extra := 0, mode := m, stray := true }
      else
        .ok { extra := textLength t, mode := m,
              token := some (.text, Text.trim (c :: t.take (textLength t))) } := by
  have hb : ¬ Text.isBlank c = true := by rw [h.notBlank]; decide
  have hq : ¬ isQuote c = true := by rw [h.notQuote]; decide
  rw [step, stepWith, if_neg hb, if_neg h.notTag, if_neg h.notTagEnd, if_neg h.notEmptyTagEnd,
    if_neg h.notEquals, if_neg hq, if_neg h.notBlock]

/-- At a plain character a step takes a name, a stray or running text. -/
theorem takes_of_plain {m : Mode} {c : Char} {t : Text} {s : Step} (hplain : Plain c t.head?)
    (h : step m c t = .ok s) :
    ∃ w rest, t = w ++ rest ∧ s.extra = w.length ∧ Takes m (c :: w) rest s.token s.mode := by
  rw [step_plain hplain] at h
  by_cases hname : (isNameStart c && (m.expectTagName || m.inAttributes)) = true
  · rw [if_pos hname] at h
    simp only [Bool.and_eq_true, Bool.or_eq_true] at hname
    obtain ⟨w, rest, rfl, hlen, hw, hr⟩ := exists_takeWhile isNamePart t
    have htake : (w ++ rest).take (nameLength (w ++ rest)) = w := List.take_left' hlen.symm
    simp only [htake] at h
    refine ⟨w, rest, rfl, ?_⟩
    have hn : IsName (c :: w) := ⟨c, w, rfl, hname.1, hw⟩
    cases he : m.expectTagName with
    | true =>
      simp only [he, if_true] at h
      cases h
      exact ⟨hlen, .tagName hn he hr⟩
    | false =>
      simp only [he, Bool.false_eq_true, if_false] at h
      cases h
      exact ⟨hlen, .propName hn he (hname.2.resolve_left (by simp [he])) hr⟩
  rw [if_neg hname] at h
  have hname' : isNameStart c = false ∨ m.expectTagName = false ∧ m.inAttributes = false := by
    simpa [Bool.and_eq_true, or_iff_not_imp_left] using hname
  by_cases ha : m.inAttributes = true
  · rw [if_pos ha] at h
    cases h
    refine ⟨[], t, rfl, rfl, .stray hplain (hname'.resolve_right ?_) ha⟩
    rintro ⟨-, ha'⟩
    rw [ha] at ha'
    exact absurd ha' (by decide)
  · rw [if_neg ha] at h
    obtain ⟨w, rest, rfl, hlen, hw, hr⟩ := exists_takeWhile isTextPart t
    have htake : (w ++ rest).take (textLength (w ++ rest)) = w := List.take_left' hlen.symm
    simp only [htake] at h
    cases h
    exact ⟨w, rest, rfl, hlen,
      .text hplain (hname'.imp_right And.left) (by simpa using ha) hw hr⟩

/-- At a quote a step takes a literal, if there is one. -/
theorem step_quote {c : Char} (hc : isQuote c = true) (m : Mode) (t : Text) :
    step m c t = (stringEnd c 0 t).elim (.error (.unterminatedString (c :: t)))
      fun n => .ok { extra := n, mode := m, token := some (.string, c :: t.take n) } := by
  have hb : ¬ Text.isBlank c = true := by simp [isBlank_of_isQuote hc]
  rw [step, stepWith, if_neg hb, if_neg (ne_of_isQuote hc rfl), if_neg (ne_of_isQuote hc rfl),
    if_neg (fun h => ne_of_isQuote hc rfl h.1), if_neg (ne_of_isQuote hc rfl), if_pos hc]
  cases stringEnd c 0 t <;> rfl

/-- At a brace a step takes a block, if there is one. -/
theorem step_brace (m : Mode) (t : Text) :
    step m '{' t = (codeEnd 1 none 0 t).elim (.error (.unterminatedCode ('{' :: t)))
      fun n => .ok { extra := n, mode := m, token := some (.code, '{' :: t.take n) } := by
  rw [step, stepWith, if_neg (by decide), if_neg (by decide), if_neg (by decide),
    if_neg (fun h => absurd h.1 (by decide)), if_neg (by decide), if_neg (by decide), if_pos rfl]
  cases codeEnd 1 none 0 t <;> rfl

/-- Where a step succeeds it does one of these things. -/
theorem step_takes {m : Mode} {c : Char} {t : Text} {s : Step} (hstep : step m c t = .ok s) :
    ∃ w rest, t = w ++ rest ∧ s.extra = w.length ∧ Takes m (c :: w) rest s.token s.mode := by
  have h := hstep
  unfold step stepWith at h
  by_cases hb : Text.isBlank c = true
  · rw [if_pos hb] at h
    cases h
    exact ⟨[], t, rfl, rfl, .blank hb⟩
  rw [if_neg hb] at h
  by_cases hlt : c = '<'
  · subst hlt
    rw [if_pos rfl] at h
    by_cases hn : t.head? = some '/'
    · simp only [hn, if_true] at h
      cases h
      obtain ⟨rest, rfl⟩ : ∃ rest, t = '/' :: rest := List.head?_eq_some_iff.mp hn
      exact ⟨['/'], rest, rfl, rfl, .closing⟩
    · simp only [hn, if_false] at h
      cases h
      exact ⟨[], t, rfl, rfl, .opening hn⟩
  rw [if_neg hlt] at h
  by_cases hgt : c = '>'
  · subst hgt
    rw [if_pos rfl] at h
    cases h
    exact ⟨[], t, rfl, rfl, .tagEnd⟩
  rw [if_neg hgt] at h
  by_cases hem : c = '/' ∧ t.head? = some '>'
  · rw [if_pos hem] at h
    cases h
    obtain ⟨rfl, hn⟩ := hem
    obtain ⟨rest, rfl⟩ : ∃ rest, t = '>' :: rest := List.head?_eq_some_iff.mp hn
    exact ⟨['>'], rest, rfl, rfl, .emptyTagEnd⟩
  rw [if_neg hem] at h
  by_cases heq : c = '='
  · subst heq
    rw [if_pos rfl] at h
    cases h
    exact ⟨[], t, rfl, rfl, .equals⟩
  rw [if_neg heq] at h
  by_cases hq : isQuote c = true
  · rw [step_quote hq] at hstep
    cases he : stringEnd c 0 t with
    | none => rw [he] at hstep; cases hstep
    | some extra =>
      rw [he] at hstep
      cases hstep
      obtain ⟨u, v, rfl, rfl, hu⟩ := stringEnd_split he
      refine ⟨u ++ [c], v, by simp, by simp, ?_⟩
      rw [Nat.zero_add, take_through]
      exact .string (isString_iff.mpr ⟨c, u, hq, rfl, hu⟩)
  by_cases ho : c = '{'
  · subst ho
    rw [step_brace] at hstep
    cases he : codeEnd 1 none 0 t with
    | none => rw [he] at hstep; cases hstep
    | some extra =>
      rw [he] at hstep
      cases hstep
      obtain ⟨u, v, rfl, rfl, hu⟩ := closes_of_codeEnd_eq_some he
      refine ⟨u ++ ['}'], v, by simp, by simp, ?_⟩
      rw [take_through]
      exact .code hu
  exact takes_of_plain
    ⟨by simpa using hb, hlt, hgt, hem, heq, by simpa using hq, ho⟩ hstep

theorem plain_of_isNameStart {c : Char} (h : isNameStart c = true) (next : Option Char) :
    Plain c next := by
  have hne : ∀ x, isNameStart x = false → c ≠ x := by
    rintro x hx rfl
    rw [h] at hx
    exact absurd hx (by decide)
  refine ⟨Text.isBlank_of_isNameStart h, hne _ (by decide), hne _ (by decide), ?_,
    hne _ (by decide), ?_, hne _ (by decide)⟩
  · rintro ⟨rfl, -⟩
    exact absurd h (by decide)
  · by_contra hq
    simp only [isQuote, Bool.not_eq_false, Bool.or_eq_true, beq_iff_eq] at hq
    rcases hq with rfl | rfl
    · exact absurd h (by decide)
    · exact absurd h (by decide)

/-- Each of these things is what the step does. -/
theorem Takes.step {m m' : Mode} {p rest : Text} {token : Option (Token.Kind × Text)}
    (h : Takes m p rest token m') : ∃ c w stray, p = c :: w ∧
      Lexer.step m c (w ++ rest) = .ok { extra := w.length, mode := m', token, stray } := by
  cases h with
  | blank hb =>
    refine ⟨_, [], false, rfl, ?_⟩
    rw [Lexer.step, stepWith, if_pos hb]
    rfl
  | closing => exact ⟨'<', ['/'], false, rfl, rfl⟩
  | opening hn =>
    refine ⟨'<', [], false, rfl, ?_⟩
    rw [List.nil_append, Lexer.step, stepWith, if_neg (by decide), if_pos rfl]
    simp only [hn, if_false]
    rfl
  | tagEnd => exact ⟨'>', [], false, rfl, rfl⟩
  | emptyTagEnd => exact ⟨'/', ['>'], false, rfl, rfl⟩
  | equals => exact ⟨'=', [], false, rfl, rfl⟩
  | string hs =>
    obtain ⟨q, u, hq, rfl, hu⟩ := isString_iff.mp hs
    have hend : stringEnd q 0 (u ++ [q] ++ rest) = some (u ++ [q]).length := by
      rw [List.append_assoc]
      simpa using hu 0 rest
    refine ⟨q, u ++ [q], false, rfl, ?_⟩
    rw [step_quote hq, hend, Option.elim_some, List.take_left]
  | @code u _ hu =>
    have hend : codeEnd 1 none 0 (u ++ ['}'] ++ rest) = some (u ++ ['}']).length := by
      rw [List.append_assoc]
      simpa using hu 0 rest
    refine ⟨'{', u ++ ['}'], false, rfl, ?_⟩
    rw [step_brace, hend, Option.elim_some, List.take_left]
  | tagName hn he hr =>
    obtain ⟨c, w, rfl, hc, hw⟩ := hn
    have hlen : nameLength (w ++ rest) = w.length := length_takeWhile_append hw hr
    refine ⟨c, w, false, rfl, ?_⟩
    rw [step_plain (plain_of_isNameStart hc _), hc, he, hlen, List.take_left]
    rfl
  | propName hn he ha hr =>
    obtain ⟨c, w, rfl, hc, hw⟩ := hn
    have hlen : nameLength (w ++ rest) = w.length := length_takeWhile_append hw hr
    refine ⟨c, w, false, rfl, ?_⟩
    rw [step_plain (plain_of_isNameStart hc _), hc, he, ha, hlen, List.take_left]
    rfl
  | @stray c _ hp hn ha =>
    refine ⟨c, [], true, rfl, ?_⟩
    rw [List.nil_append, step_plain hp, hn, ha]
    rfl
  | @text c w _ hp hn ha hw hr =>
    have hlen : textLength (w ++ rest) = w.length := length_takeWhile_append hw hr
    have hname : ¬ (isNameStart c && (m.expectTagName || m.inAttributes)) = true := by
      rcases hn with hn | hn
      · rw [hn, Bool.false_and]; decide
      · rw [hn, ha, Bool.or_false, Bool.and_false]; decide
    refine ⟨c, w, false, rfl, ?_⟩
    rw [step_plain hp, if_neg hname, ha, hlen, List.take_left]
    rfl

/-- What is read as running text is running text: the conditions on its head are those under
which the other branches of a step were passed. -/
theorem isRunningText_trim {c : Char} {w rest : Text} (hp : Plain c (w ++ rest).head?)
    (hw : ∀ d ∈ w, isTextPart d = true) : IsRunningText (Text.trim (c :: w)) := by
  obtain ⟨v, b, heq, rfl⟩ := trim_cons_of_not_blank hp.notBlank w
  have hpart : ∀ d ∈ c :: v, d ≠ '<' ∧ d ≠ '{' := by
    intro d hd
    rcases List.mem_cons.mp hd with rfl | hd
    · exact ⟨hp.notTag, hp.notBlock⟩
    · simpa [isTextPart] using hw d (List.mem_append_left b hd)
  constructor
  · rw [heq]; exact List.cons_ne_nil c v
  · exact Text.trim_trim _
  · rw [heq]; exact fun h => (hpart _ h).1 rfl
  · rw [heq]; exact fun h => (hpart _ h).2 rfl
  · rw [heq]
    intro d hd
    rw [List.head?_cons, Option.mem_some] at hd
    rw [← hd]
    exact ⟨hp.notTagEnd, hp.notEquals, hp.notQuote⟩
  · rw [heq]
    rintro ⟨x, hx⟩
    rw [List.cons_append, List.cons.injEq] at hx
    refine hp.notEmptyTagEnd ⟨hx.1.symm, ?_⟩
    rw [← hx.2]
    rfl

/-- **What a step yields is of its kind's form, and is made of characters that the step takes.** -/
theorem Takes.admits {m m' : Mode} {p rest : Text} {k : Token.Kind} {l : Text}
    (h : Takes m p rest (some (k, l)) m') : k.Admits l ∧ l.Sublist p := by
  cases h with
  | closing | opening | tagEnd | emptyTagEnd | equals => exact ⟨rfl, List.Sublist.refl _⟩
  | string hs => exact ⟨hs, List.Sublist.refl _⟩
  | code hu => exact ⟨⟨_, rfl, hu⟩, List.Sublist.refl _⟩
  | tagName hn _ _ => exact ⟨hn, List.Sublist.refl _⟩
  | propName hn _ _ _ => exact ⟨hn, List.Sublist.refl _⟩
  | text hp _ _ hw _ => exact ⟨isRunningText_trim hp hw, Text.trim_sublist _⟩

/-! ## 3. Readings -/

/-- The token of a step, at its place. -/
def placed (i : Nat) (token : Option (Token.Kind × Text)) : List Token :=
  token.toList.map fun t => ⟨t.1, t.2, i⟩

theorem run_nil (i : Nat) (m : Mode) :
    run i m [] = { tokens := [], position := i, mode := m, strays := [], failure := none } := by
  rw [run]

/-- A reading goes on after its first step. -/
theorem run_of_step {m : Mode} {c : Char} {t : Text} {s : Step} (h : step m c t = .ok s)
    (i : Nat) : (run i m (c :: t)).tokens =
        placed i s.token ++ (run (i + 1 + s.extra) s.mode (t.drop s.extra)).tokens ∧
      (run i m (c :: t)).failure = (run (i + 1 + s.extra) s.mode (t.drop s.extra)).failure := by
  rw [run, h]
  refine ⟨?_, rfl⟩
  cases htoken : s.token with
  | none => simp only [htoken]; rfl
  | some token => simp only [htoken]; rfl

theorem run_of_error {m : Mode} {c : Char} {t : Text} {fault : MarkupFault}
    (h : step m c t = .error fault) (i : Nat) : (run i m (c :: t)).tokens = [] := by
  rw [run, h]

/-- **Every token of a reading is of its kind's form.** -/
theorem run_formed (i : Nat) (m : Mode) (t : Text) :
    ∀ token ∈ (run i m t).tokens, token.IsFormed := by
  induction i, m, t using run.induct with
  | case1 i m =>
    rw [run_nil]
    intro token h
    cases h
  | case2 i m c t fault h =>
    rw [run_of_error h]
    intro token h
    cases h
  | case3 i m c t s h ih =>
    rw [(run_of_step h i).1]
    intro token ht
    rcases List.mem_append.mp ht with ht | ht
    · obtain ⟨⟨k, l⟩, hk, rfl⟩ := List.mem_map.mp ht
      obtain ⟨w, rest, -, -, htakes⟩ := step_takes h
      rw [Option.mem_toList.mp hk] at htakes
      exact htakes.admits.1
    · exact ih token ht

/-- Reading the piece `t`, which `rest` follows, at offset `i` and in mode `m` gives the tokens
`ts` and leaves mode `m'`. -/
structure Reads (i : Nat) (m : Mode) (t rest : Text) (ts : List Token) (m' : Mode) : Prop where
  tokens : (run i m (t ++ rest)).tokens = ts ++ (run (i + t.length) m' rest).tokens
  failure : (run i m (t ++ rest)).failure = (run (i + t.length) m' rest).failure

theorem Takes.reads {m m' : Mode} {p rest : Text} {token : Option (Token.Kind × Text)}
    (h : Takes m p rest token m') (i : Nat) : Reads i m p rest (placed i token) m' := by
  obtain ⟨c, w, stray, rfl, hstep⟩ := h.step
  obtain ⟨ht, hf⟩ := run_of_step hstep i
  rw [List.drop_left, ← List.cons_append] at ht hf
  have hlen : i + (c :: w).length = i + 1 + w.length := by rw [List.length_cons]; omega
  exact ⟨by rw [ht, hlen], by rw [hf, hlen]⟩

theorem Reads.nil (i : Nat) (m : Mode) (rest : Text) : Reads i m [] rest [] m := ⟨rfl, rfl⟩

/-- **Pieces that follow each other are read one after the other.** -/
theorem Reads.append {i : Nat} {m m₁ m₂ : Mode} {t₁ t₂ rest : Text} {ts₁ ts₂ : List Token}
    (h₁ : Reads i m t₁ (t₂ ++ rest) ts₁ m₁) (h₂ : Reads (i + t₁.length) m₁ t₂ rest ts₂ m₂) :
    Reads i m (t₁ ++ t₂) rest (ts₁ ++ ts₂) m₂ := by
  have hlen : i + (t₁ ++ t₂).length = i + t₁.length + t₂.length := by
    rw [List.length_append]; omega
  constructor
  · rw [List.append_assoc, h₁.tokens, h₂.tokens, hlen, List.append_assoc]
  · rw [List.append_assoc, h₁.failure, h₂.failure, hlen]

end Lexer

end InlineMarkup
