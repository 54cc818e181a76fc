import InlineMarkup.Proofs.Boundaries

/-!
# Tokens and what lies between them

A reading cuts its text into pieces, and what each piece may be is known (`Lexer.Takes`).  When the
reading does not fail, the pieces make up the whole text (`ReadsAll`); so the tokens stand in it
from left to right, each at its place and none reaching into the next, and the characters that are
in no token are accounted for (`tokens_span_text`).

There are few of these.  Blanks are dropped, at the ends of running text as elsewhere.  Besides them
only strays are, and these only in the attribute list of a tag.  The reader knows by a flag that it
is in one; that the flag can be read off the tokens before the place is the invariant behind
`ReadsAll.between`.
-/

namespace InlineMarkup

open Literal

/-! ## 1. Places -/

/-- The offset lies in the token. -/
def Token.Covers (token : Token) (i : Nat) : Prop :=
  token.position ≤ i ∧ (i : Int) < token.position + token.lexeme.length

instance (token : Token) (i : Nat) : Decidable (token.Covers i) :=
  inferInstanceAs (Decidable (_ ∧ _))

/-- A token of this kind settles whether an attribute list goes on after it. -/
def Token.Kind.isBoundary : Token.Kind → Bool
  | .tagName | .tagEnd | .emptyTagEnd => true
  | _ => false

/-- The kind of the last token before an offset that settles whether an attribute list goes on. -/
def Token.lastBoundary (ts : List Token) (i : Nat) : Option Token.Kind :=
  (ts.filter fun t => decide (t.position < (i : Int)) && t.kind.isBoundary).getLast?.map Token.kind

/-- A character that is dropped in an attribute list: it starts no mark, no literal, no block and no
name. -/
structure IsStray (c : Char) : Prop where
  notTag : c ≠ '<'
  notTagEnd : c ≠ '>'
  notEquals : c ≠ '='
  notQuote : isQuote c = false
  notBlock : c ≠ '{'
  notLetter : Text.isLetter c = false
  notUnderscore : c ≠ '_'

@[simp] theorem Token.lastBoundary_append (ts us : List Token) (i : Nat) :
    lastBoundary (ts ++ us) i = (lastBoundary us i).or (lastBoundary ts i) := by
  simp [lastBoundary, Option.map_or]

theorem Token.lastBoundary_eq_none {ts : List Token} {i : Nat}
    (h : ∀ t ∈ ts, (i : Int) ≤ t.position) : lastBoundary ts i = none := by
  rw [lastBoundary, Option.map_eq_none_iff, List.getLast?_eq_none_iff, List.filter_eq_nil_iff]
  intro t ht
  simp [h t ht]

/-- A character of two texts put together stands in the first or in the second. -/
theorem append_eq_append_cons {p rest a b : Text} {c : Char} (h : p ++ rest = a ++ c :: b) :
    (∃ d, p = a ++ c :: d ∧ b = d ++ rest) ∨ ∃ d, a = p ++ d ∧ rest = d ++ c :: b := by
  obtain ⟨d, rfl, hd⟩ | ⟨d, rfl, hd⟩ := List.append_eq_append_iff.mp h
  · exact Or.inr ⟨d, rfl, hd⟩
  · cases d with
    | nil => exact Or.inr ⟨[], by simp, hd.symm⟩
    | cons x d =>
      obtain ⟨rfl, rfl⟩ := List.cons.inj hd
      exact Or.inl ⟨d, rfl, rfl⟩

namespace Lexer

/-! ## 2. The piece of a step -/

/-- A step that yields a token takes the token's characters and, at most, blanks after them. -/
theorem Takes.lexeme {m m' : Mode} {p rest : Text} {k : Token.Kind} {l : Text}
    (h : Takes m p rest (some (k, l)) m') : l ≠ [] ∧ ∃ b, Text.AllBlank b ∧ p = l ++ b := by
  have hwhole : ∀ {l : Text}, l ≠ [] → l ≠ [] ∧ ∃ b, Text.AllBlank b ∧ l = l ++ b := fun hl =>
    ⟨hl, [], fun c hc => absurd hc List.not_mem_nil, (List.append_nil _).symm⟩
  cases h with
  | closing | opening _ | tagEnd | emptyTagEnd | equals | code _ =>
    exact hwhole (List.cons_ne_nil _ _)
  | string hs =>
    obtain ⟨q, rest, rfl, -⟩ := hs.quoted
    exact hwhole (List.cons_ne_nil _ _)
  | tagName hn _ _ =>
    obtain ⟨c, rest, rfl, -⟩ := hn
    exact hwhole (List.cons_ne_nil _ _)
  | propName hn _ _ _ =>
    obtain ⟨c, rest, rfl, -⟩ := hn
    exact hwhole (List.cons_ne_nil _ _)
  | @text c w _ hp _ _ hw _ =>
    refine ⟨(isRunningText_trim hp hw).ne_nil, ?_⟩
    obtain ⟨a, b, ha, hb, heq, -⟩ := Text.trim_spec (c :: w)
    cases a with
    | nil => exact ⟨b, hb, heq⟩
    | cons d a =>
      -- the first character is not blank, so that nothing is trimmed before it
      have hblank := ha d List.mem_cons_self
      rw [← (List.cons.inj heq).1, hp.notBlank] at hblank
      cases hblank

/-- A step that yields no token drops a single character: a blank, or a stray in an attribute
list. -/
theorem Takes.dropped {m m' : Mode} {p rest : Text} (h : Takes m p rest none m') :
    ∃ c, p = [c] ∧ m' = m ∧
      (Text.isBlank c = true ∨ IsStray c ∧ m.inAttributes = true) := by
  cases h with
  | @blank c _ hc => exact ⟨c, rfl, rfl, Or.inl hc⟩
  | @stray c _ hp hname hinside =>
    simp only [isNameStart, Bool.or_eq_false_iff, beq_eq_false_iff_ne] at hname
    exact ⟨c, rfl, rfl, Or.inr ⟨⟨hp.notTag, hp.notTagEnd, hp.notEquals, hp.notQuote, hp.notBlock,
      hname.1, hname.2⟩, hinside⟩⟩

/-- What a step takes and puts into no token is a blank, or a single stray. -/
theorem Takes.between {m m' : Mode} {a b rest : Text} {c : Char}
    {token : Option (Token.Kind × Text)} (h : Takes m (a ++ c :: b) rest token m')
    (hout : ∀ t ∈ token, t.2.length ≤ a.length) :
    Text.isBlank c = true ∨ a = [] ∧ IsStray c ∧ m.inAttributes = true := by
  cases token with
  | none =>
    obtain ⟨d, hpiece, -, hd⟩ := h.dropped
    obtain ⟨rfl, hc⟩ := List.append_eq_singleton_iff.mp hpiece |>.resolve_right (by simp)
    obtain ⟨rfl, -⟩ := List.cons.inj hc
    exact hd.imp_right fun hstray => ⟨rfl, hstray⟩
  | some token =>
    obtain ⟨-, blanks, hblanks, hpiece⟩ := h.lexeme
    have hlength : token.2.length ≤ a.length := hout token rfl
    refine Or.inl (hblanks c ?_)
    obtain ⟨d, hl, -⟩ | ⟨d, -, rfl⟩ := append_eq_append_cons hpiece.symm
    · rw [hl, List.length_append, List.length_cons] at hlength
      omega
    · simp

/-- **After a step the reader is in an attribute list if the token of the step says so**, or if the
token says nothing about it and the reader was in one before. -/
theorem Takes.lastBoundary {m m' : Mode} {p rest : Text} {token : Option (Token.Kind × Text)}
    (h : Takes m p rest token m') (hinside : m'.inAttributes = true) {i j : Nat} (hij : i < j) :
    Token.lastBoundary (placed i token) j = some .tagName ∨
      Token.lastBoundary (placed i token) j = none ∧ m.inAttributes = true := by
  have hlt : (i : Int) < j := by omega
  cases h with
  | blank _ => exact Or.inr ⟨rfl, hinside⟩
  | stray _ _ _ => exact Or.inr ⟨rfl, hinside⟩
  | tagEnd | emptyTagEnd => cases hinside
  | tagName _ _ _ => exact Or.inl (by simp [Token.lastBoundary, placed, hlt, Token.Kind.isBoundary])
  | closing | opening _ | equals | string _ | code _ | propName _ _ _ _ | text _ _ _ _ _ =>
    exact Or.inr ⟨by simp [Token.lastBoundary, placed, Token.Kind.isBoundary], hinside⟩

/-! ## 3. Whole readings -/

/-- Reading the whole of `t`, from offset `i` and mode `m` on, yields the tokens `ts`. -/
inductive ReadsAll : Nat → Mode → Text → List Token → Prop
  | nil {i : Nat} {m : Mode} : ReadsAll i m [] []
  | step {i : Nat} {m m' : Mode} {p rest : Text} {token : Option (Token.Kind × Text)}
      {ts : List Token} : Takes m p rest token m' → ReadsAll (i + p.length) m' rest ts →
      ReadsAll i m (p ++ rest) (placed i token ++ ts)

theorem ReadsThrough.readsAll {i : Nat} {m m' : Mode} {t : Text} {ts : List Token}
    (h : ReadsThrough i m t [] ts m') : ReadsAll i m t ts := by
  generalize hrest : ([] : Text) = rest at h
  induction h with
  | nil => exact .nil
  | step htakes _ ih =>
    subst hrest
    rw [List.append_nil] at htakes
    exact .step htakes (ih rfl)

/-- **A reading that does not fail is over all of its text.** -/
theorem readsAll_run (i : Nat) (m : Mode) (t : Text) (h : (run i m t).failure = none) :
    ReadsAll i m t (run i m t).tokens ∧ (run i m t).position = i + t.length := by
  obtain ⟨u, rest, ht, hreads, hposition, ⟨rfl, -⟩ | ⟨c, w, fault, -, -, hsome⟩⟩ :=
    exists_readsThrough i m t
  · rw [List.append_nil] at ht
    rw [← ht] at hreads hposition
    exact ⟨hreads.readsAll, hposition⟩
  · rw [h] at hsome
    cases hsome

namespace ReadsAll

variable {i : Nat} {m : Mode} {t : Text} {ts : List Token}

/-- **Each token stands in the text at its place.** -/
theorem span (h : ReadsAll i m t ts) : ∀ token ∈ ts, token.lexeme ≠ [] ∧
    ∃ a b, t = a ++ (token.lexeme ++ b) ∧ token.position = (i + a.length : Nat) := by
  induction h with
  | nil => exact fun token hmem => absurd hmem List.not_mem_nil
  | @step i m m' p rest token ts htakes _ ih =>
    intro tok hmem
    rcases List.mem_append.mp hmem with hmem | hmem
    · obtain ⟨⟨k, l⟩, hk, rfl⟩ := List.mem_map.mp hmem
      rw [Option.mem_toList.mp hk] at htakes
      obtain ⟨hne, blanks, -, rfl⟩ := htakes.lexeme
      exact ⟨hne, [], blanks ++ rest, List.append_assoc _ _ _, rfl⟩
    · obtain ⟨hne, a, b, rfl, hposition⟩ := ih tok hmem
      refine ⟨hne, p ++ a, b, (List.append_assoc _ _ _).symm, ?_⟩
      rw [hposition, List.length_append, Nat.add_assoc]

/-- **No token reaches into the next.** -/
theorem apart (h : ReadsAll i m t ts) :
    ts.Pairwise fun a b : Token => a.position + a.lexeme.length ≤ b.position := by
  induction h with
  | nil => exact .nil
  | @step i m m' p rest token ts htakes hrest ih =>
    refine List.pairwise_append.mpr ⟨?_, ih, ?_⟩
    · cases token with
      | none => exact .nil
      | some token => exact List.pairwise_singleton ..
    · intro a ha b hb
      obtain ⟨-, before, after, -, hb⟩ := hrest.span b hb
      obtain ⟨⟨k, l⟩, hk, rfl⟩ := List.mem_map.mp ha
      rw [Option.mem_toList.mp hk] at htakes
      obtain ⟨-, blanks, -, rfl⟩ := htakes.lexeme
      rw [List.length_append] at hb
      dsimp only
      omega

/-- **What lies in no token is a blank, or a stray in an attribute list.** -/
theorem between (h : ReadsAll i m t ts) : ∀ (a : Text) (c : Char) (b : Text), t = a ++ c :: b →
    (∀ token ∈ ts, ¬ token.Covers (i + a.length)) →
    Text.isBlank c = true ∨ IsStray c ∧
      (Token.lastBoundary ts (i + a.length) = some .tagName ∨
        Token.lastBoundary ts (i + a.length) = none ∧ m.inAttributes = true) := by
  induction h with
  | nil =>
    intro a c b heq
    cases a <;> cases heq
  | @step i m m' p rest token ts htakes hrest ih =>
    intro a c b heq hout
    obtain ⟨d, rfl, -⟩ | ⟨d, rfl, hd⟩ := append_eq_append_cons heq
    · have hpiece : ∀ t ∈ token, t.2.length ≤ a.length := by
        intro t ht
        have hnot := hout ⟨t.1, t.2, i⟩ (by simp [placed, Option.mem_def.mp ht])
        simp only [Token.Covers] at hnot
        omega
      refine (htakes.between hpiece).imp_right ?_
      rintro ⟨rfl, hstray, hinside⟩
      refine ⟨hstray, Or.inr ⟨Token.lastBoundary_eq_none fun t ht => ?_, hinside⟩⟩
      obtain ⟨-, before, after, -, hposition⟩ := (ReadsAll.step htakes hrest).span t ht
      simp only [hposition, List.length_nil]
      omega
    · have hlength : i + (p ++ d).length = i + p.length + d.length := by
        rw [List.length_append, Nat.add_assoc]
      have hlt : i < i + p.length + d.length := by
        obtain ⟨x, w, -, rfl, -⟩ := htakes.step
        rw [List.length_cons]
        omega
      rw [hlength] at hout ⊢
      refine (ih d c b hd fun t ht => hout t (List.mem_append_right _ ht)).imp_right ?_
      rintro ⟨hstray, hlast | ⟨hlast, hinside⟩⟩
      · exact ⟨hstray, Or.inl (by rw [Token.lastBoundary_append, hlast]; rfl)⟩
      · rw [Token.lastBoundary_append, hlast, Option.none_or]
        exact ⟨hstray, htakes.lastBoundary hinside hlt⟩

end ReadsAll

end Lexer

/-! ## 4. Nothing is lost silently -/

/-- **The tokens of a text stand in it, and nothing between them is lost silently.**

A reading that succeeds goes to the end of the text.  Each of its tokens has characters, and is the
piece of the text at its place; each ends before the next one starts.  A character that is in no
token is a blank, or a stray: of the tokens before it that start or end an attribute list the last
is the name of a tag, and the character starts no mark, no literal, no block and no name. -/
theorem tokens_span_text {t : Text} {tokens : List Token} (h : Token.ofText t = .ok tokens) :
    (Lexed.ofText t).position = t.length ∧
      (∀ token ∈ tokens, token.lexeme ≠ [] ∧ 0 ≤ token.position ∧
        t.slice token.position (token.position + token.lexeme.length) = token.lexeme) ∧
      tokens.Pairwise (fun a b : Token => a.position + a.lexeme.length ≤ b.position) ∧
      ∀ i c, t[i]? = some c → (∀ token ∈ tokens, ¬ token.Covers i) →
        Text.isBlank c = true ∨ IsStray c ∧ Token.lastBoundary tokens i = some .tagName := by
  obtain ⟨hfailure, rfl⟩ := Element.ofText_eq_ok_iff.mp h
  obtain ⟨hreads, hend⟩ := Lexer.readsAll_run 0 {} t hfailure
  refine ⟨by rw [Lexed.ofText, hend, Nat.zero_add], fun token htoken => ?_, hreads.apart,
    fun i c hc hout => ?_⟩
  · obtain ⟨hne, a, b, ht, hposition⟩ := hreads.span token htoken
    rw [Nat.zero_add] at hposition
    rw [hposition]
    refine ⟨hne, Int.natCast_nonneg _, ?_⟩
    conv_lhs => rw [ht]
    exact Text.slice_append a token.lexeme b
  · obtain ⟨hlt, hget⟩ := List.getElem?_eq_some_iff.mp hc
    have hlength : 0 + (t.take i).length = i := by
      rw [List.length_take]
      omega
    have hsplit : t = t.take i ++ c :: t.drop (i + 1) := by
      rw [← hget, ← List.drop_eq_getElem_cons hlt, List.take_append_drop]
    have hbetween := hreads.between _ c _ hsplit (by rwa [hlength])
    rw [hlength] at hbetween
    refine hbetween.imp_right fun hstray => ⟨hstray.1, hstray.2.resolve_right ?_⟩
    rintro ⟨-, hinside⟩
    cases hinside

/-- A stray among the props of a tag, and running text with a blank after it. -/
theorem tokens_span_text_stray :
    let t : Text := "<a ? b='c'>d </a>"
    let tokens := (Lexed.ofText t).tokens
    Token.ofText t = .ok tokens ∧ t[3]? = some '?' ∧ (∀ token ∈ tokens, ¬ token.Covers 3) ∧
      (Lexed.ofText t).position = 17 ∧ IsStray '?' ∧
      Token.lastBoundary tokens 3 = some .tagName := by
  intro t tokens
  have htokens : Token.ofText t = .ok tokens := by decide +kernel
  have hout : ∀ token ∈ tokens, ¬ token.Covers 3 := by decide +kernel
  obtain ⟨hend, -, -, hbetween⟩ := tokens_span_text htokens
  refine ⟨htokens, rfl, hout, hend, (hbetween 3 '?' rfl hout).resolve_left ?_⟩
  decide

end InlineMarkup
