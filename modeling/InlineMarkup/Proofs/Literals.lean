import InlineMarkup.Proofs.Characters

/-!
# Where quoted literals and code blocks end

The two readers for closed stretches return a length, counted from where they were started.  What
makes them usable at the head of any text is that they never look past what they return: a
literal or block ends where it ends whatever follows it, and wherever the count was started
(`stringEnd_split`, `codeEnd_split`).

From this follows what a block keeps when the blanks inside its braces go.  Blanks at the end of a
block stand outside every quoted stretch, for nothing after them could close one
(`codeEnd_blanks_quoted`), so the same block without them is still one block
(`Closes.trim`).
-/

namespace InlineMarkup.Literal

/-! ## 1. Quoted literals -/

theorem stringEnd_cons {q c : Char} (i : Nat) (rest : Text) (hc : c ≠ '\\') :
    stringEnd q i (c :: rest) = if c = q then some (i + 1) else stringEnd q (i + 1) rest := by
  cases rest <;> simp only [stringEnd, if_neg hc]

/-- **A quoted literal is determined by its own characters.**  The end that was found is a quote;
what stands before it has no say in what follows, nor has the count. -/
theorem stringEnd_split {q : Char} {i n : Nat} {t : Text} (h : stringEnd q i t = some n) :
    ∃ u v, t = u ++ q :: v ∧ n = i + u.length + 1 ∧
      ∀ j rest, stringEnd q j (u ++ q :: rest) = some (j + u.length + 1) := by
  induction i, t using stringEnd.induct q with
  | case1 i => simp [stringEnd] at h
  | case2 i => simp [stringEnd] at h
  | case3 i c rest ih =>
    rw [stringEnd, if_pos rfl] at h
    obtain ⟨u, v, rfl, rfl, hu⟩ := ih h
    refine ⟨'\\' :: c :: u, v, rfl, by simp only [List.length_cons]; omega, fun j rest => ?_⟩
    rw [List.cons_append, List.cons_append, stringEnd, if_pos rfl]
    simp only [hu, List.length_cons, Option.some.injEq]
    omega
  | case4 i rest hc =>
    rw [stringEnd_cons i rest hc, if_pos rfl, Option.some.injEq] at h
    refine ⟨[], rest, rfl, h.symm, fun j rest => ?_⟩
    rw [List.nil_append, stringEnd_cons j rest hc, if_pos rfl]
    rfl
  | case5 i c rest hc hq ih =>
    rw [stringEnd_cons i rest hc, if_neg hq] at h
    obtain ⟨u, v, rfl, rfl, hu⟩ := ih h
    refine ⟨c :: u, v, rfl, by simp only [List.length_cons]; omega, fun j rest => ?_⟩
    rw [List.cons_append, stringEnd_cons j _ hc, if_neg hq, hu, List.length_cons,
      Option.some.injEq]
    omega

/-! ## 2. Code blocks -/

theorem codeEnd_quoted {q c : Char} (d : Int) (i : Nat) (rest : Text) (hc : c ≠ '\\') :
    codeEnd d (some q) i (c :: rest) =
      codeEnd d (if c = q then none else some q) (i + 1) rest := by
  cases rest <;> simp only [codeEnd, if_neg hc]

/-- **A code block is determined by its own characters.**  The end that was found is a closing
brace; what stands before it has no say in what follows, nor has the count. -/
theorem codeEnd_split {d : Int} {q : Option Char} {i n : Nat} {t : Text}
    (h : codeEnd d q i t = some n) :
    ∃ u v, t = u ++ '}' :: v ∧ n = i + u.length + 1 ∧
      ∀ j rest, codeEnd d q j (u ++ '}' :: rest) = some (j + u.length + 1) := by
  induction d, q, i, t using codeEnd.induct with
  | case1 d q i => simp [codeEnd] at h
  | case2 d i q => simp [codeEnd] at h
  | case3 d i q c rest ih =>
    rw [codeEnd, if_pos rfl] at h
    obtain ⟨u, v, rfl, rfl, hu⟩ := ih h
    refine ⟨'\\' :: c :: u, v, rfl, by simp only [List.length_cons]; omega, fun j rest => ?_⟩
    rw [List.cons_append, List.cons_append, codeEnd, if_pos rfl]
    simp only [hu, List.length_cons, Option.some.injEq]
    omega
  | case4 d i c rest q hc ih =>
    rw [codeEnd_quoted d i rest hc] at h
    obtain ⟨u, v, rfl, rfl, hu⟩ := ih h
    refine ⟨c :: u, v, rfl, by simp only [List.length_cons]; omega, fun j rest => ?_⟩
    rw [List.cons_append, codeEnd_quoted d j _ hc, hu, List.length_cons, Option.some.injEq]
    omega
  | case5 d i c rest hc ih =>
    rw [codeEnd, if_pos hc] at h
    obtain ⟨u, v, rfl, rfl, hu⟩ := ih h
    refine ⟨c :: u, v, rfl, by simp only [List.length_cons]; omega, fun j rest => ?_⟩
    rw [List.cons_append, codeEnd, if_pos hc, hu, List.length_cons, Option.some.injEq]
    omega
  | case6 d i rest hc ih =>
    rw [codeEnd, if_neg hc, if_pos rfl] at h
    obtain ⟨u, v, rfl, rfl, hu⟩ := ih h
    refine ⟨'{' :: u, v, rfl, by simp only [List.length_cons]; omega, fun j rest => ?_⟩
    rw [List.cons_append, codeEnd, if_neg hc, if_pos rfl, hu, List.length_cons,
      Option.some.injEq]
    omega
  | case7 i rest hc hb =>
    rw [codeEnd, if_neg hc, if_neg hb, if_pos rfl, if_pos rfl, Option.some.injEq] at h
    refine ⟨[], rest, rfl, h.symm, fun j rest => ?_⟩
    rw [List.nil_append, codeEnd, if_neg hc, if_neg hb, if_pos rfl, if_pos rfl]
    rfl
  | case8 d i rest hd hc hb ih =>
    rw [codeEnd, if_neg hc, if_neg hb, if_pos rfl, if_neg hd] at h
    obtain ⟨u, v, rfl, rfl, hu⟩ := ih h
    refine ⟨'}' :: u, v, rfl, by simp only [List.length_cons]; omega, fun j rest => ?_⟩
    rw [List.cons_append, codeEnd, if_neg hc, if_neg hb, if_pos rfl, if_neg hd, hu,
      List.length_cons, Option.some.injEq]
    omega
  | case9 d i c rest hc hb he ih =>
    rw [codeEnd, if_neg hc, if_neg hb, if_neg he] at h
    obtain ⟨u, v, rfl, rfl, hu⟩ := ih h
    refine ⟨c :: u, v, rfl, by simp only [List.length_cons]; omega, fun j rest => ?_⟩
    rw [List.cons_append, codeEnd, if_neg hc, if_neg hb, if_neg he, hu, List.length_cons,
      Option.some.injEq]
    omega

theorem codeEnd_gt {d : Int} {q : Option Char} {i n : Nat} {t : Text}
    (h : codeEnd d q i t = some n) : i < n := by
  obtain ⟨u, v, -, rfl, -⟩ := codeEnd_split h
  omega

/-- The inside of a block: with a closing brace after it, it is read to just that brace. -/
def Closes (u : Text) : Prop :=
  ∀ j rest, codeEnd 1 none j (u ++ '}' :: rest) = some (j + u.length + 1)

/-- One reading that ends where it should is enough. -/
theorem closes_of_codeEnd {u v : Text} {i : Nat}
    (h : codeEnd 1 none i (u ++ '}' :: v) = some (i + u.length + 1)) : Closes u := by
  obtain ⟨u', v', heq, hlen, hu'⟩ := codeEnd_split h
  obtain ⟨rfl, -⟩ := List.append_inj heq (by omega)
  exact hu'

/-- A block at the head of a text has an inside. -/
theorem closes_of_codeEnd_eq_some {t : Text} {n : Nat} (h : codeEnd 1 none 0 t = some n) :
    ∃ u v, t = u ++ '}' :: v ∧ n = u.length + 1 ∧ Closes u := by
  obtain ⟨u, v, rfl, rfl, hu⟩ := codeEnd_split h
  exact ⟨u, v, rfl, by omega, hu⟩

/-! ## 3. Blanks in a block -/

theorem isQuote_of_isBlank {c : Char} (h : Text.isBlank c = true) : isQuote c = false :=
  Text.of_isBlank (p := fun c => isQuote c = false) (by decide +kernel) h

theorem ne_of_isBlank {c x : Char} (h : Text.isBlank c = true)
    (hx : Text.isBlank x = false) : c ≠ x := by
  rintro rfl
  rw [h] at hx
  exact absurd hx (by decide)

theorem isBlank_of_isQuote {c : Char} (h : isQuote c = true) : Text.isBlank c = false := by
  by_contra hb
  rw [isQuote_of_isBlank (by simpa using hb)] at h
  cases h

theorem ne_of_isQuote {q x : Char} (hq : isQuote q = true) (hx : isQuote x = false) : q ≠ x := by
  rintro rfl
  rw [hq] at hx
  cases hx

/-- Outside quotes, blanks are only counted. -/
theorem codeEnd_blanks (d : Int) : ∀ (a t : Text) (i : Nat), Text.AllBlank a →
    codeEnd d none i (a ++ t) = codeEnd d none (i + a.length) t
  | [], _, _, _ => rfl
  | c :: a, t, i, h => by
    have hc : Text.isBlank c = true := h c List.mem_cons_self
    have hq : ¬ isQuote c = true := by rw [isQuote_of_isBlank hc]; decide
    have ih := codeEnd_blanks d a t (i + 1) fun x hx => h x (List.mem_cons_of_mem c hx)
    rw [List.cons_append, codeEnd, if_neg hq, if_neg (ne_of_isBlank hc (by decide)),
      if_neg (ne_of_isBlank hc (by decide)), ih, List.length_cons]
    congr 1
    omega

/-- **In quotes, blanks and a closing brace close nothing.** -/
theorem codeEnd_blanks_quoted (d : Int) {q : Char} (hq : isQuote q = true) :
    ∀ (b v : Text) (i : Nat), Text.AllBlank b →
      codeEnd d (some q) i (b ++ '}' :: v) = codeEnd d (some q) (i + b.length + 1) v
  | [], v, i, _ => by
    have hne : '}' ≠ q := (ne_of_isQuote hq rfl).symm
    rw [List.nil_append, codeEnd_quoted d i v (by decide), if_neg hne]
    rfl
  | c :: b, v, i, h => by
    have hc : Text.isBlank c = true := h c List.mem_cons_self
    have hne : c ≠ q := ne_of_isBlank hc (isBlank_of_isQuote hq)
    have ih := codeEnd_blanks_quoted d hq b v (i + 1) fun x hx => h x (List.mem_cons_of_mem c hx)
    rw [List.cons_append, codeEnd_quoted d i _ (ne_of_isBlank hc (by decide)), if_neg hne, ih,
      List.length_cons]
    congr 1
    omega

/-- Blanks before the brace that ends a block can go.  The induction follows the walk through
`m`; were the walk inside of quotes after `m`, it could not end at the brace that comes next. -/
theorem codeEnd_drop_blanks {b v : Text} (hb : Text.AllBlank b) :
    ∀ (m : Text) (d : Int) (q : Option Char) (i : Nat), (∀ c ∈ q, isQuote c = true) →
      codeEnd d q i (m ++ (b ++ '}' :: v)) = some (i + m.length + b.length + 1) →
      codeEnd d q i (m ++ '}' :: v) = some (i + m.length + 1)
  | [], d, none, i, _, h => by
    rw [List.nil_append, codeEnd_blanks d b _ i hb, codeEnd, if_neg (by decide),
      if_neg (by decide), if_pos rfl] at h
    rw [List.nil_append, codeEnd, if_neg (by decide), if_neg (by decide), if_pos rfl]
    split at h
    · rename_i hd
      rw [if_pos hd]
      rfl
    · have := codeEnd_gt h
      simp only [List.length_nil] at this
      omega
  | [], d, some q, i, hq, h => by
    rw [List.nil_append, codeEnd_blanks_quoted d (hq q rfl) b v i hb] at h
    have := codeEnd_gt h
    simp only [List.length_nil] at this
    omega
  | c :: m, d, some q, i, hq, h => by
    have hlen : i + (c :: m).length = i + 1 + m.length := by rw [List.length_cons]; omega
    rw [hlen] at h ⊢
    by_cases hc : c = '\\'
    · subst hc
      cases m with
      | nil =>
        -- the backslash would take the first of the blanks, and leave the walk in quotes
        cases b with
        | nil => exact h
        | cons x b =>
          have hb' : Text.AllBlank b := fun y hy => hb y (List.mem_cons_of_mem x hy)
          rw [List.cons_append, List.nil_append, List.cons_append, codeEnd, if_pos rfl,
            codeEnd_blanks_quoted d (hq q rfl) b v _ hb'] at h
          have := codeEnd_gt h
          simp only [List.length_cons, List.length_nil] at this
          omega
      | cons x m =>
        have hlen' : i + 1 + (x :: m).length = i + 2 + m.length := by
          rw [List.length_cons]; omega
        rw [hlen', List.cons_append, List.cons_append, codeEnd, if_pos rfl] at h ⊢
        exact codeEnd_drop_blanks hb m d (some q) (i + 2) hq h
    · rw [List.cons_append, codeEnd_quoted d i _ hc] at h ⊢
      refine codeEnd_drop_blanks hb m d _ (i + 1) ?_ h
      split
      · intro c hc; cases hc
      · exact hq
  | c :: m, d, none, i, _, h => by
    have hlen : i + (c :: m).length = i + 1 + m.length := by rw [List.length_cons]; omega
    have hnone : ∀ c ∈ (none : Option Char), isQuote c = true := fun c hc => by cases hc
    rw [hlen, List.cons_append, codeEnd] at h ⊢
    by_cases hq : isQuote c = true
    · rw [if_pos hq] at h ⊢
      exact codeEnd_drop_blanks hb m d (some c) (i + 1)
        (fun x hx => by rw [← Option.mem_some.mp hx]; exact hq) h
    · rw [if_neg hq] at h ⊢
      by_cases ho : c = '{'
      · rw [if_pos ho] at h ⊢
        exact codeEnd_drop_blanks hb m (d + 1) none (i + 1) hnone h
      · rw [if_neg ho] at h ⊢
        by_cases hcl : c = '}'
        · rw [if_pos hcl] at h ⊢
          by_cases hd : d = 1
          · rw [if_pos hd, Option.some.injEq] at h
            omega
          · rw [if_neg hd] at h ⊢
            exact codeEnd_drop_blanks hb m (d - 1) none (i + 1) hnone h
        · rw [if_neg hcl] at h ⊢
          exact codeEnd_drop_blanks hb m d none (i + 1) hnone h

/-- **The inside of a block stays one without the blanks at its ends.** -/
theorem Closes.trim {u : Text} (h : Closes u) : Closes (Text.trim u) := by
  obtain ⟨a, b, ha, hb, heq, -⟩ := Text.trim_spec u
  have h0 := h 0 []
  rw [heq, List.append_assoc, List.append_assoc, codeEnd_blanks 1 a _ 0 ha] at h0
  have hlen : 0 + (a ++ (Text.trim u ++ b)).length + 1
      = 0 + a.length + (Text.trim u).length + b.length + 1 := by
    simp only [List.length_append]; omega
  rw [hlen] at h0
  exact closes_of_codeEnd
    (codeEnd_drop_blanks hb _ 1 none _ (fun c hc => by cases hc) h0)

end InlineMarkup.Literal
