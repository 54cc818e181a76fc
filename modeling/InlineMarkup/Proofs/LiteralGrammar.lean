import InlineMarkup.Proofs.Literals

/-!
# The grammar of quoted literals and code blocks

    literal  ::=  q ( `\` any  |  any but q and `\` )* q          for a quote q
    block    ::=  `{` ( block  |  literal  |  any but quotes and braces )* `}`

The readers of the two know nothing of this: they walk through a text with a count of the open
braces and the quote they are inside of.  They find the end of a literal, or of a block, exactly
where the grammar has one (`stringEnd_eq_some_iff`, `codeEnd_eq_some_iff`); so a reader that finds
no end stands at a text that starts with no complete literal and no complete block.

Walking through a stretch that the grammar allows leaves the count and the quote as they were, which
is an induction on the derivation.  In the other direction a stretch that the grammar allows is cut
off at each place where the walk closes what is open.
-/

namespace InlineMarkup.Literal

/-! ## 1. The grammar -/

/-- What may stand between two quotes `q`. -/
inductive QuotedBody (q : Char) : Text → Prop
  | nil : QuotedBody q []
  | escape {c : Char} {t : Text} : QuotedBody q t → QuotedBody q ('\\' :: c :: t)
  | char {c : Char} {t : Text} : c ≠ '\\' → c ≠ q → QuotedBody q t → QuotedBody q (c :: t)

/-- What may stand between the braces of a block. -/
inductive BlockBody : Text → Prop
  | nil : BlockBody []
  | char {c : Char} {t : Text} : isQuote c = false → c ≠ '{' → c ≠ '}' → BlockBody t →
      BlockBody (c :: t)
  | literal {q : Char} {u t : Text} : isQuote q = true → QuotedBody q u → BlockBody t →
      BlockBody (q :: (u ++ q :: t))
  | block {u t : Text} : BlockBody u → BlockBody t → BlockBody ('{' :: (u ++ '}' :: t))

/-- A complete quoted literal. -/
def IsLiteral (t : Text) : Prop :=
  ∃ q u, isQuote q = true ∧ t = q :: (u ++ [q]) ∧ QuotedBody q u

/-- A complete block. -/
def IsBlock (t : Text) : Prop := ∃ u, t = '{' :: (u ++ ['}']) ∧ BlockBody u

/-! ## 2. Quoted literals -/

/-- What may stand between quotes is read to the closing quote. -/
theorem QuotedBody.stringEnd {q : Char} (hq : isQuote q = true) {u : Text} (h : QuotedBody q u)
    (rest : Text) : ∀ i, Literal.stringEnd q i (u ++ q :: rest) = some (i + u.length + 1) := by
  induction h with
  | nil =>
    intro i
    rw [List.nil_append, stringEnd_cons i rest (ne_of_isQuote hq rfl), if_pos rfl]
    rfl
  | @escape c t _ ih =>
    intro i
    rw [List.cons_append, List.cons_append, Literal.stringEnd, if_pos rfl]
    simp only [ih, List.length_cons, Option.some.injEq]
    omega
  | @char c t hc hne _ ih =>
    intro i
    rw [List.cons_append, stringEnd_cons i _ hc, if_neg hne, ih, List.length_cons,
      Option.some.injEq]
    omega

/-- **A literal ends exactly where the grammar has its end.** -/
theorem stringEnd_eq_some_iff {q : Char} (hq : isQuote q = true) {i n : Nat} {t : Text} :
    stringEnd q i t = some n ↔
      ∃ u v, t = u ++ q :: v ∧ QuotedBody q u ∧ n = i + u.length + 1 := by
  constructor
  · intro h
    induction i, t using stringEnd.induct q with
    | case1 i => simp [stringEnd] at h
    | case2 i => simp [stringEnd] at h
    | case3 i c rest ih =>
      rw [stringEnd, if_pos rfl] at h
      obtain ⟨u, v, rfl, hu, rfl⟩ := ih h
      exact ⟨'\\' :: c :: u, v, rfl, .escape hu, by simp only [List.length_cons]; omega⟩
    | case4 i rest hc =>
      rw [stringEnd_cons i rest hc, if_pos rfl, Option.some.injEq] at h
      exact ⟨[], rest, rfl, .nil, h.symm⟩
    | case5 i c rest hc hne ih =>
      rw [stringEnd_cons i rest hc, if_neg hne] at h
      obtain ⟨u, v, rfl, hu, rfl⟩ := ih h
      exact ⟨c :: u, v, rfl, .char hc hne hu, by simp only [List.length_cons]; omega⟩
  · rintro ⟨u, v, rfl, hu, rfl⟩
    exact hu.stringEnd hq v i

/-! ## 3. Code blocks -/

/-- In a block, a quoted stretch is passed as a whole, and braces in it do not count. -/
theorem QuotedBody.codeEnd {q : Char} (hq : isQuote q = true) {u : Text} (h : QuotedBody q u)
    (d : Int) (rest : Text) : ∀ i, Literal.codeEnd d (some q) i (u ++ q :: rest) =
      Literal.codeEnd d none (i + u.length + 1) rest := by
  induction h with
  | nil =>
    intro i
    rw [List.nil_append, codeEnd_quoted d i rest (ne_of_isQuote hq rfl), if_pos rfl]
    rfl
  | @escape c t _ ih =>
    intro i
    rw [List.cons_append, List.cons_append, Literal.codeEnd, if_pos rfl]
    simp only [ih, List.length_cons]
    congr 1
    omega
  | @char c t hc hne _ ih =>
    intro i
    rw [List.cons_append, codeEnd_quoted d i _ hc, if_neg hne, ih, List.length_cons]
    congr 1
    omega

/-- A walk in quotes comes to an end only after the closing quote. -/
theorem quotedBody_of_codeEnd {q : Char} {d : Int} {n : Nat} : ∀ {t : Text} {i : Nat},
    codeEnd d (some q) i t = some n →
    ∃ u v, t = u ++ q :: v ∧ QuotedBody q u ∧ codeEnd d none (i + u.length + 1) v = some n
  | [], i, h => by simp [codeEnd] at h
  | [c], i, h => by
    by_cases hc : c = '\\'
    · rw [hc, codeEnd, if_pos rfl] at h
      cases h
    · rw [codeEnd_quoted d i [] hc] at h
      simp [codeEnd] at h
  | c :: x :: t, i, h => by
    by_cases hc : c = '\\'
    · subst hc
      rw [codeEnd, if_pos rfl] at h
      obtain ⟨u, v, rfl, hu, hv⟩ := quotedBody_of_codeEnd (t := t) h
      refine ⟨'\\' :: x :: u, v, rfl, .escape hu, ?_⟩
      rwa [List.length_cons, List.length_cons,
        show i + (u.length + 1 + 1) + 1 = i + 2 + u.length + 1 by omega]
    · rw [codeEnd_quoted d i _ hc] at h
      by_cases hq : c = q
      · rw [if_pos hq] at h
        exact ⟨[], x :: t, by rw [hq]; rfl, .nil, h⟩
      · rw [if_neg hq] at h
        obtain ⟨u, v, heq, hu, hv⟩ := quotedBody_of_codeEnd (t := x :: t) h
        refine ⟨c :: u, v, by rw [heq]; rfl, .char hc hq hu, ?_⟩
        rwa [List.length_cons, show i + (u.length + 1) + 1 = i + 1 + u.length + 1 by omega]

/-- **What may stand between braces leaves the count of open braces as it was.**  It has to be
positive, or the first block inside would end the walk. -/
theorem BlockBody.codeEnd {u : Text} (h : BlockBody u) : ∀ (d : Int) (i : Nat) (rest : Text),
    1 ≤ d → Literal.codeEnd d none i (u ++ rest) = Literal.codeEnd d none (i + u.length) rest := by
  induction h with
  | nil => exact fun d i rest _ => rfl
  | @char c t hquote hopen hclose _ ih =>
    intro d i rest hd
    have hq : ¬ isQuote c = true := by simp [hquote]
    rw [List.cons_append, Literal.codeEnd, if_neg hq, if_neg hopen, if_neg hclose, ih d _ _ hd,
      List.length_cons]
    congr 1
    omega
  | @literal q u t hq hu _ ih =>
    intro d i rest hd
    rw [List.cons_append, Literal.codeEnd, if_pos hq, List.append_assoc, List.cons_append,
      hu.codeEnd hq, ih d _ _ hd, List.length_cons, List.length_append, List.length_cons]
    congr 1
    omega
  | @block u t _ _ ihu iht =>
    intro d i rest hd
    rw [List.cons_append, Literal.codeEnd, if_neg (by decide), if_pos rfl, List.append_assoc,
      List.cons_append, ihu (d + 1) _ _ (by omega), Literal.codeEnd, if_neg (by decide),
      if_neg (by decide), if_pos rfl, if_neg (by omega), Int.add_sub_cancel, iht d _ _ hd,
      List.length_cons, List.length_append, List.length_cons]
    congr 1
    omega

/-- **A walk cuts off what may stand between braces.**  It ends at the closing brace if there is one
brace to close, and goes on after it if there are more.  The induction is on the length of the text,
since a block inside is cut off by one walk and what follows the block by another. -/
theorem blockBody_of_codeEnd {n : Nat} : ∀ (k : Nat) {t : Text} {d : Int} {i : Nat}, t.length ≤ k →
    1 ≤ d → codeEnd d none i t = some n → ∃ u v, t = u ++ '}' :: v ∧ BlockBody u ∧
      (d = 1 → n = i + u.length + 1) ∧ (d ≠ 1 → codeEnd (d - 1) none (i + u.length + 1) v = some n)
  | _, [], d, i, _, _, h => by simp [codeEnd] at h
  | 0, c :: t, d, i, hk, _, _ => absurd hk (by simp)
  | k + 1, c :: t, d, i, hk, hd, h => by
    have hlen : t.length ≤ k := by simpa using hk
    rw [codeEnd] at h
    by_cases hq : isQuote c = true
    · rw [if_pos hq] at h
      obtain ⟨w, rest, rfl, hw, hrest⟩ := quotedBody_of_codeEnd h
      have hshort : rest.length ≤ k := by
        simp only [List.length_append, List.length_cons] at hlen
        omega
      obtain ⟨u, v, rfl, hu, hone, hmore⟩ := blockBody_of_codeEnd k hshort hd hrest
      have hplace : i + (c :: (w ++ c :: u)).length + 1 = i + 1 + w.length + 1 + u.length + 1 := by
        simp only [List.length_cons, List.length_append]
        omega
      refine ⟨c :: (w ++ c :: u), v, by simp, .literal hq hw hu, ?_⟩
      rw [hplace]
      exact ⟨hone, hmore⟩
    rw [if_neg hq] at h
    by_cases hopen : c = '{'
    · rw [if_pos hopen] at h
      obtain ⟨w, rest, rfl, hw, -, hrest⟩ := blockBody_of_codeEnd k hlen (by omega) h
      replace hrest := hrest (by omega)
      rw [Int.add_sub_cancel] at hrest
      have hshort : rest.length ≤ k := by
        simp only [List.length_append, List.length_cons] at hlen
        omega
      obtain ⟨u, v, rfl, hu, hone, hmore⟩ := blockBody_of_codeEnd k hshort hd hrest
      have hplace : i + ('{' :: (w ++ '}' :: u)).length + 1 =
          i + 1 + w.length + 1 + u.length + 1 := by
        simp only [List.length_cons, List.length_append]
        omega
      refine ⟨'{' :: (w ++ '}' :: u), v, by simp [hopen], .block hw hu, ?_⟩
      rw [hplace]
      exact ⟨hone, hmore⟩
    rw [if_neg hopen] at h
    by_cases hclose : c = '}'
    · rw [if_pos hclose] at h
      refine ⟨[], t, by rw [hclose]; rfl, .nil, fun hd => ?_, fun hd => ?_⟩
      · rw [if_pos hd, Option.some.injEq] at h
        exact h.symm
      · rwa [if_neg hd] at h
    rw [if_neg hclose] at h
    obtain ⟨u, v, rfl, hu, hone, hmore⟩ := blockBody_of_codeEnd k hlen hd h
    have hplace : i + (c :: u).length + 1 = i + 1 + u.length + 1 := by
      rw [List.length_cons]
      omega
    refine ⟨c :: u, v, rfl, .char (by simpa using hq) hopen hclose hu, ?_⟩
    rw [hplace]
    exact ⟨hone, hmore⟩

/-- **A block ends exactly where the grammar has its end.** -/
theorem codeEnd_eq_some_iff {i n : Nat} {t : Text} : codeEnd 1 none i t = some n ↔
    ∃ u v, t = u ++ '}' :: v ∧ BlockBody u ∧ n = i + u.length + 1 := by
  constructor
  · intro h
    obtain ⟨u, v, rfl, hu, hone, -⟩ := blockBody_of_codeEnd _ le_rfl le_rfl h
    exact ⟨u, v, rfl, hu, hone rfl⟩
  · rintro ⟨u, v, rfl, hu, rfl⟩
    rw [hu.codeEnd 1 i _ le_rfl, codeEnd, if_neg (by decide), if_neg (by decide), if_pos rfl,
      if_pos rfl]

/-! ## 4. Texts that start with no literal and no block -/

/-- A quote with no end starts no complete literal. -/
theorem not_isLiteral_of_stringEnd {c : Char} {t u : Text} (h : stringEnd c 0 t = none)
    (hu : u <+: c :: t) : ¬ IsLiteral u := by
  rintro ⟨q, w, hq, rfl, hw⟩
  obtain ⟨v, hv⟩ := hu
  simp only [List.cons_append, List.append_assoc, List.nil_append, List.cons.injEq] at hv
  obtain ⟨rfl, rfl⟩ := hv
  rw [hw.stringEnd hq] at h
  cases h

/-- A brace with no end starts no complete block. -/
theorem not_isBlock_of_codeEnd {c : Char} {t u : Text} (h : codeEnd 1 none 0 t = none)
    (hu : u <+: c :: t) : ¬ IsBlock u := by
  rintro ⟨w, rfl, hw⟩
  obtain ⟨v, hv⟩ := hu
  simp only [List.cons_append, List.append_assoc, List.nil_append, List.cons.injEq] at hv
  obtain ⟨-, rfl⟩ := hv
  rw [codeEnd_eq_some_iff.mpr ⟨w, v, rfl, hw, rfl⟩] at h
  cases h

end InlineMarkup.Literal
