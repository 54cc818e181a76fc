import InlineMarkup.Proofs.Quotes

/-!
# The balancing parenthesis

The search for the parenthesis that closes another one counts a depth as it goes.  What it finds can
be told without a depth and without a walk: it is the first unquoted `)` up to which there are one
more unquoted `)` than unquoted `(` (`Balances`).

What is quoted is told by offsets.  A quote outside of every stretch opens one, and the stretch goes
up to and with the next equal quote that has no backslash right before it, or to the end of the
text (`closers`, `Outside`, `Quoted`).  A walk keeps track of this with the quote it is inside of
and the character before (`quoted_iff`).

The search has an invariant: so far the unquoted `(` are `depth` more than the unquoted `)`, and no
place that has been passed is a balancing one (`Scanned`).  One character keeps it
(`Scanned.succ`), and at the place where the search stops it says that this place is the first
(`closeFrom_eq_some_iff`).

The last statement is about two texts.  The search reads nothing at or before the parenthesis it
was started for and nothing after the one it finds (`closing?_congr`).
-/

namespace InlineMarkup.Region

/-! ## 1. Stretches by their offsets -/

/-- The offsets of the quotes that may close a stretch which the quote at offset `a` opens: they
come after it, are equal to it and have no backslash right before them. -/
def closers (t : Text) (a : Nat) : Set Nat :=
  {b | a < b ∧ t[b]? = t[a]? ∧ t[b - 1]? ≠ some '\\'}

/-- The offsets that a scan from offset `i` comes to outside of stretches.  From a quote it goes on
after the first of the quotes that may close the stretch. -/
inductive Outside (t : Text) (i : Nat) : Nat → Prop
  | start : Outside t i i
  | plain {k : Nat} {c : Char} : Outside t i k → t[k]? = some c → isQuote c = false →
      Outside t i (k + 1)
  | stretch {a b : Nat} {q : Char} : Outside t i a → t[a]? = some q → isQuote q = true →
      IsLeast (closers t a) b → Outside t i (b + 1)

/-- The character at offset `k` is quoted for a scan from offset `i`: it lies in a stretch, from the
quote that opens it to the one that closes it, or to the end of the text if none does. -/
def Quoted (t : Text) (i k : Nat) : Prop :=
  ∃ a q, Outside t i a ∧ t[a]? = some q ∧ isQuote q = true ∧
    a ≤ k ∧ ∀ b, IsLeast (closers t a) b → k ≤ b

/-- A stretch reaches as far as no closing quote comes before. -/
theorem mem_lowerBounds_closers {t : Text} {a k : Nat} :
    k ∈ lowerBounds (closers t a) ↔ ∀ b, IsLeast (closers t a) b → k ≤ b := by
  constructor
  · intro h b hb
    exact h hb.1
  · intro h b hb
    exact (h _ (isLeast_csInf ⟨b, hb⟩)).trans (Nat.sInf_le hb)

/-! ## 2. Stretches by a walk -/

/-- The quote that a walk from offset `i` is inside of when it comes to offset `k`. -/
def quoteAt (t : Text) (i k : Nat) : Option Char := quoteThrough none ' ' ((t.drop i).take (k - i))

/-- The character before offset `k` that a walk from offset `i` has seen. -/
def seenBefore (t : Text) (i k : Nat) : Char := ((t.drop i).take (k - i)).getLast?.getD ' '

/-- One more character at the end of a walk. -/
theorem quoteThrough_concat (c : Char) : ∀ (u : Text) (quote : Option Char) (prev : Char),
    quoteThrough quote prev (u ++ [c]) =
      quoteAfter (quoteThrough quote prev u) (u.getLast?.getD prev) c
  | [], _, _ => rfl
  | d :: u, quote, prev => by
    rw [List.cons_append, quoteThrough, quoteThrough_concat c u, quoteThrough, List.getLast?_cons,
      Option.getD_some]

section Walk

variable {t : Text} {i k : Nat}

theorem take_drop_succ {c : Char} (hik : i ≤ k) (hc : t[k]? = some c) :
    (t.drop i).take (k + 1 - i) = (t.drop i).take (k - i) ++ [c] := by
  rw [show k + 1 - i = k - i + 1 by omega, List.take_add_one, List.getElem?_drop,
    show i + (k - i) = k by omega, hc]
  rfl

@[simp]
theorem quoteAt_self (t : Text) (i : Nat) : quoteAt t i i = none := by
  simp [quoteAt, quoteThrough]

@[simp]
theorem seenBefore_self (t : Text) (i : Nat) : seenBefore t i i = ' ' := by
  simp [seenBefore]

theorem quoteAt_succ {c : Char} (hik : i ≤ k) (hc : t[k]? = some c) :
    quoteAt t i (k + 1) = quoteAfter (quoteAt t i k) (seenBefore t i k) c := by
  rw [quoteAt, take_drop_succ hik hc, quoteThrough_concat]
  rfl

theorem seenBefore_succ {c : Char} (hik : i ≤ k) (hc : t[k]? = some c) :
    seenBefore t i (k + 1) = c := by
  rw [seenBefore, take_drop_succ hik hc]
  simp

/-- Past the end of the text nothing changes. -/
theorem quoteAt_succ_of_length_le (hlen : t.length ≤ k) : quoteAt t i (k + 1) = quoteAt t i k := by
  have hdrop : (t.drop i).length ≤ k - i := by
    rw [List.length_drop]
    omega
  rw [quoteAt, quoteAt, List.take_of_length_le hdrop, List.take_of_length_le (by omega)]

/-- **A walk that is inside of quotes leaves them exactly at a closing quote.** -/
theorem quoteAt_succ_of_some {a : Nat} {q : Char} (hia : i ≤ a) (hak : a < k) (ha : t[a]? = some q)
    (hk : quoteAt t i k = some q) :
    (k ∈ closers t a → quoteAt t i (k + 1) = none) ∧
      (k ∉ closers t a → quoteAt t i (k + 1) = some q) := by
  cases hc : t[k]? with
  | none =>
    rw [quoteAt_succ_of_length_le (List.getElem?_eq_none_iff.mp hc), hk]
    exact ⟨fun h => absurd h.2.1 (by simp [hc, ha]), fun _ => rfl⟩
  | some c =>
    have hlt : k < t.length := (List.getElem?_eq_some_iff.mp hc).1
    obtain ⟨d, hd⟩ : ∃ d, t[k - 1]? = some d := ⟨_, List.getElem?_eq_getElem (by omega)⟩
    have hseen : seenBefore t i (k - 1 + 1) = d := seenBefore_succ (by omega) hd
    rw [show k - 1 + 1 = k by omega] at hseen
    have hcloser : k ∈ closers t a ↔ c = q ∧ d ≠ '\\' := by simp [closers, hak, hc, ha, hd]
    rw [quoteAt_succ (by omega) hc, hk, quoteAfter_some, hseen, hcloser]
    exact ⟨fun h => if_pos h, fun h => if_neg h⟩

/-- From a quote outside of quotes on, a walk is inside of them up to the first closing quote. -/
theorem quoteAt_of_lowerBound {a : Nat} {q : Char} (hia : i ≤ a) (hnone : quoteAt t i a = none)
    (ha : t[a]? = some q) (hq : isQuote q = true) (hak : a < k)
    (hlow : k ∈ lowerBounds (closers t a)) : quoteAt t i k = some q := by
  induction k, hak using Nat.le_induction with
  | base => rw [quoteAt_succ hia ha, hnone, quoteAfter_none, if_pos hq]
  | succ k hak ih =>
    have hk : quoteAt t i k = some q := ih fun b hb => (Nat.le_succ k).trans (hlow hb)
    refine (quoteAt_succ_of_some hia hak ha hk).2 fun hcloser => ?_
    exact absurd (hlow hcloser) (by omega)

/-- **Outside of stretches a walk is outside of quotes.** -/
theorem Outside.quoteAt (h : Outside t i k) : i ≤ k ∧ Region.quoteAt t i k = none := by
  induction h with
  | start => exact ⟨le_rfl, quoteAt_self t i⟩
  | plain _ hc hplain ih =>
    refine ⟨by omega, ?_⟩
    rw [quoteAt_succ ih.1 hc, ih.2, quoteAfter_none, hplain]
    rfl
  | @stretch a b q _ ha hq hb ih =>
    have hab : a < b := hb.1.1
    have hin : Region.quoteAt t i b = some q := quoteAt_of_lowerBound ih.1 ih.2 ha hq hab hb.2
    exact ⟨by omega, (quoteAt_succ_of_some ih.1 hab ha hin).1 hb.1⟩

/-- **A walk outside of quotes is outside of stretches**, and one inside of quotes is in a stretch
that such a quote opens and nothing has closed.  The two go together in one induction on the
offset. -/
theorem outside_or_inside (hik : i ≤ k) :
    (quoteAt t i k = none → k ≤ t.length → Outside t i k) ∧
      ∀ q, quoteAt t i k = some q → ∃ a, Outside t i a ∧ t[a]? = some q ∧ isQuote q = true ∧
        a < k ∧ k ∈ lowerBounds (closers t a) := by
  induction k, hik using Nat.le_induction with
  | base => exact ⟨fun _ _ => .start, fun q hq => by simp at hq⟩
  | succ k hik ih =>
    obtain ⟨hout, hin⟩ := ih
    cases hk : quoteAt t i k with
    | some q =>
      obtain ⟨a, houtside, ha, hq, hak, hlow⟩ := hin q hk
      obtain ⟨hleaves, hstays⟩ := quoteAt_succ_of_some houtside.quoteAt.1 hak ha hk
      by_cases hcloser : k ∈ closers t a
      · rw [hleaves hcloser]
        exact ⟨fun _ _ => .stretch houtside ha hq ⟨hcloser, hlow⟩, fun q hq => by simp at hq⟩
      · rw [hstays hcloser]
        refine ⟨fun h => by simp at h, fun q' hq' => ?_⟩
        obtain rfl : q = q' := by simpa using hq'
        refine ⟨a, houtside, ha, hq, by omega, fun b hb => ?_⟩
        exact Nat.lt_of_le_of_ne (hlow hb) fun heq => hcloser (heq ▸ hb)
    | none =>
      cases hc : t[k]? with
      | none =>
        have hlen := List.getElem?_eq_none_iff.mp hc
        rw [quoteAt_succ_of_length_le hlen, hk]
        exact ⟨fun _ h => absurd h (by omega), fun q hq => by simp at hq⟩
      | some c =>
        have houtside := hout hk (List.getElem?_eq_some_iff.mp hc).1.le
        rw [quoteAt_succ hik hc, hk, quoteAfter_none]
        cases hq : isQuote c with
        | false => exact ⟨fun _ _ => .plain houtside hc hq, fun q hq => by simp at hq⟩
        | true =>
          refine ⟨fun h => by simp at h, fun q hcq => ?_⟩
          obtain rfl : c = q := by simpa using hcq
          exact ⟨k, houtside, hc, hq, by omega, fun b hb => hb.1⟩

/-- **A walk knows what is quoted.** -/
theorem quoted_iff : Quoted t i k ↔
    i ≤ k ∧ (quoteAt t i k ≠ none ∨ t[k]?.any isQuote = true) := by
  constructor
  · rintro ⟨a, q, houtside, ha, hq, hak, hend⟩
    obtain ⟨hia, hnone⟩ := houtside.quoteAt
    refine ⟨hia.trans hak, ?_⟩
    rcases Nat.eq_or_lt_of_le hak with rfl | hlt
    · right
      rw [ha]
      exact hq
    · left
      rw [quoteAt_of_lowerBound hia hnone ha hq hlt (mem_lowerBounds_closers.mpr hend)]
      simp
  · rintro ⟨hik, h⟩
    obtain ⟨hout, hin⟩ := outside_or_inside (t := t) hik
    cases hk : quoteAt t i k with
    | some q =>
      obtain ⟨a, houtside, ha, hq, hak, hlow⟩ := hin q hk
      exact ⟨a, q, houtside, ha, hq, hak.le, mem_lowerBounds_closers.mp hlow⟩
    | none =>
      cases hc : t[k]? with
      | none => simp [hk, hc] at h
      | some c =>
        have hlt : k < t.length := (List.getElem?_eq_some_iff.mp hc).1
        have hquote : isQuote c = true := by simpa [hk, hc] using h
        exact ⟨k, c, hout hk hlt.le, hc, hquote, le_rfl, fun b hb => hb.1.1.le⟩

instance : Decidable (Quoted t i k) := decidable_of_iff _ quoted_iff.symm

theorem not_quoted_iff {c : Char} (hik : i ≤ k) (hc : t[k]? = some c) (hplain : isQuote c = false) :
    ¬ Quoted t i k ↔ quoteAt t i k = none := by
  simp [quoted_iff, hik, hc, hplain]

end Walk

/-! ## 3. Counting what is not quoted -/

/-- How many of the characters from offset `i` to before offset `k` are `c` and not quoted. -/
def unquoted (t : Text) (i : Nat) (c : Char) (k : Nat) : Nat :=
  ((Finset.Ico i k).filter fun x => t[x]? = some c ∧ ¬ Quoted t i x).card

/-- The parenthesis at offset `j` balances one at offset `p`: it is not quoted, and from after `p`
up to and with `j` there are one more unquoted `)` than unquoted `(`. -/
structure Balances (t : Text) (p j : Nat) : Prop where
  after : p < j
  closer : t[j]? = some ')'
  bare : ¬ Quoted t (p + 1) j
  outnumbers : unquoted t (p + 1) ')' (j + 1) = unquoted t (p + 1) '(' (j + 1) + 1

theorem unquoted_self (t : Text) (i : Nat) (c : Char) : unquoted t i c i = 0 := by
  rw [unquoted, Finset.Ico_self, Finset.filter_empty, Finset.card_empty]

theorem unquoted_succ {t : Text} {i k : Nat} (hik : i ≤ k) (c : Char) :
    unquoted t i c (k + 1) =
      unquoted t i c k + if t[k]? = some c ∧ ¬ Quoted t i k then 1 else 0 := by
  rw [unquoted, unquoted, ← Finset.insert_Ico_right_eq_Ico_add_one hik, Finset.filter_insert]
  split
  · rw [Finset.card_insert_of_notMem (by simp)]
  · rfl

/-- A character that is not quoted counts for itself and for no other. -/
theorem unquoted_succ_of_bare {t : Text} {i k : Nat} {x : Char} (hik : i ≤ k)
    (hx : t[k]? = some x) (hbare : ¬ Quoted t i k) (c : Char) :
    unquoted t i c (k + 1) = unquoted t i c k + if x = c then 1 else 0 := by
  simp [unquoted_succ hik, hx, hbare]

/-! ## 4. The search -/

/-- A search for the parenthesis that balances the one at `p` has come to offset `k`. -/
structure Scanned (t : Text) (p k depth : Nat) : Prop where
  after : p + 1 ≤ k
  level : unquoted t (p + 1) ')' k + depth = unquoted t (p + 1) '(' k
  pending : ∀ j < k, ¬ Balances t p j

theorem scanned_start (t : Text) (p : Nat) : Scanned t p (p + 1) 0 :=
  ⟨le_rfl, by rw [unquoted_self, unquoted_self], fun j hj h => absurd h.after (by omega)⟩

section Step

variable {t : Text} {p k depth : Nat}

/-- One character keeps the invariant as long as the closing parentheses do not come to outnumber
the opening ones. -/
theorem Scanned.succ {depth' : Nat} (h : Scanned t p k depth)
    (hlevel : unquoted t (p + 1) ')' (k + 1) + depth' = unquoted t (p + 1) '(' (k + 1)) :
    Scanned t p (k + 1) depth' := by
  refine ⟨h.after.trans (Nat.le_succ k), hlevel, fun j hj hbalances => ?_⟩
  rcases Nat.lt_succ_iff_lt_or_eq.mp hj with hlt | rfl
  · exact h.pending j hlt hbalances
  · have := hbalances.outnumbers
    omega

theorem Scanned.opened (h : Scanned t p k depth) (hc : t[k]? = some '(')
    (hbare : ¬ Quoted t (p + 1) k) : Scanned t p (k + 1) (depth + 1) := by
  have hlevel := h.level
  have hcount := unquoted_succ_of_bare h.after hc hbare
  refine h.succ ?_
  rw [hcount, hcount, if_pos rfl, if_neg (by decide)]
  omega

theorem Scanned.closed (h : Scanned t p k (depth + 1)) (hc : t[k]? = some ')')
    (hbare : ¬ Quoted t (p + 1) k) : Scanned t p (k + 1) depth := by
  have hlevel := h.level
  have hcount := unquoted_succ_of_bare h.after hc hbare
  refine h.succ ?_
  rw [hcount, hcount, if_pos rfl, if_neg (by decide)]
  omega

theorem Scanned.passed (h : Scanned t p k depth)
    (hopen : ¬ (t[k]? = some '(' ∧ ¬ Quoted t (p + 1) k))
    (hclose : ¬ (t[k]? = some ')' ∧ ¬ Quoted t (p + 1) k)) : Scanned t p (k + 1) depth := by
  refine h.succ ?_
  rw [unquoted_succ h.after, unquoted_succ h.after, if_neg hopen, if_neg hclose]
  exact h.level

/-- **Where the search stops is the first balancing place.** -/
theorem Scanned.isLeast (h : Scanned t p k 0) (hc : t[k]? = some ')')
    (hbare : ¬ Quoted t (p + 1) k) : IsLeast {j | Balances t p j} k := by
  constructor
  · refine ⟨h.after, hc, hbare, ?_⟩
    have hlevel := h.level
    have hcount := unquoted_succ_of_bare h.after hc hbare
    rw [hcount, hcount, if_pos rfl, if_neg (by decide)]
    omega
  · intro j hj
    by_contra hlt
    exact h.pending j (by omega) hj

end Step

/-- **The search finds the first balancing parenthesis.**  The induction is on what is left of the
text. -/
theorem closeFrom_eq_some_iff {t : Text} {p : Nat} : ∀ {s : Text} {k depth : Nat}, t.drop k = s →
    Scanned t p k depth → ∀ j,
      closeFrom k (quoteAt t (p + 1) k) (seenBefore t (p + 1) k) depth s = some j ↔
        IsLeast {j | Balances t p j} j := by
  intro s
  induction s with
  | nil =>
    intro k depth hs h j
    refine ⟨fun hj => absurd hj (by simp [closeFrom]), fun hj => ?_⟩
    have hlt := (List.getElem?_eq_some_iff.mp hj.1.closer).1
    have hlen := List.drop_eq_nil_iff.mp hs
    exact absurd hj.1 (h.pending j (by omega))
  | cons c s ih =>
    intro k depth hs h j
    obtain ⟨hc, hrest⟩ := drop_eq_cons hs
    have more : ∀ {quote' depth'}, Scanned t p (k + 1) depth' →
        quoteAfter (quoteAt t (p + 1) k) (seenBefore t (p + 1) k) c = quote' →
        (closeFrom (k + 1) quote' c depth' s = some j ↔ IsLeast {j | Balances t p j} j) := by
      intro quote' depth' hnext hquote
      have hstep := ih hrest hnext j
      rwa [quoteAt_succ h.after hc, seenBefore_succ h.after hc, hquote] at hstep
    -- for a parenthesis, to be outside of quotes is not to be quoted
    have hparen : ∀ {x}, isQuote x = false →
        (quoteAt t (p + 1) k = none ∧ c = x ↔ t[k]? = some x ∧ ¬ Quoted t (p + 1) k) := by
      intro x hx
      rw [hc, Option.some.injEq, and_comm]
      refine and_congr_right fun hcx => ?_
      rw [not_quoted_iff h.after hc (hcx ▸ hx)]
    rw [closeFrom_cons]
    by_cases hopen : quoteAt t (p + 1) k = none ∧ c = '('
    · obtain ⟨hx, hbare⟩ := (hparen rfl).mp hopen
      rw [if_pos hopen]
      exact more (h.opened hx hbare) (by rw [hopen.1, hopen.2]; rfl)
    rw [if_neg hopen]
    by_cases hclose : quoteAt t (p + 1) k = none ∧ c = ')'
    · obtain ⟨hx, hbare⟩ := (hparen rfl).mp hclose
      rw [if_pos hclose]
      cases depth with
      | zero =>
        have hleast := h.isLeast hx hbare
        rw [Option.some.injEq]
        exact ⟨fun hj => hj ▸ hleast, fun hj => hleast.unique hj⟩
      | succ depth =>
        exact more (h.closed hx hbare) (by rw [hclose.1, hclose.2]; rfl)
    · rw [if_neg hclose]
      exact more (h.passed (fun hx => hopen ((hparen rfl).mpr hx))
        fun hx => hclose ((hparen rfl).mpr hx)) rfl

/-- The search from the parenthesis at `p` on. -/
theorem closing?_eq_some_iff_isLeast {t : Text} {p j : Nat} :
    closing? t p = some j ↔ IsLeast {j | Balances t p j} j := by
  have h := closeFrom_eq_some_iff rfl (scanned_start t p) j
  rwa [quoteAt_self, seenBefore_self] at h

/-- **What is found depends on nothing but the characters up to it.** -/
theorem closing?_congr {t t' : Text} {p j : Nat} (h : closing? t p = some j)
    (hagree : ∀ k, p < k → k ≤ j → t'[k]? = t[k]?) : closing? t' p = some j := by
  obtain ⟨u, v, hdrop, rfl, hu⟩ := closeFrom_split h
  have htake : (t'.drop (p + 1)).take (u.length + 1) = u ++ [')'] := by
    have hsame : (t'.drop (p + 1)).take (u.length + 1) = (t.drop (p + 1)).take (u.length + 1) := by
      refine List.ext_getElem? fun n => ?_
      simp only [List.getElem?_take, List.getElem?_drop]
      split
      · exact hagree (p + 1 + n) (by omega) (by omega)
      · rfl
    rw [hsame, hdrop, Lexer.take_through]
  have hdrop' := List.take_append_drop (u.length + 1) (t'.drop (p + 1))
  rw [htake, List.append_assoc, List.singleton_append] at hdrop'
  rw [closing?, ← hdrop', hu]

/-- **The search finds exactly the balancing parenthesis.**

What it finds is the least offset after `p` at which an unquoted `)` stands that makes the unquoted
`)` after `p` one more than the unquoted `(`.  It finds nothing exactly when there is no such
offset.  An offset that is found is found in every text that has the same characters after `p` and
up to it, whatever stands before and whatever follows. -/
theorem closing_least_balancing (t : Text) (p : Nat) :
    (∀ j, closing? t p = some j ↔ IsLeast {j | Balances t p j} j) ∧
      (closing? t p = none ↔ ∀ j, ¬ Balances t p j) ∧
      ∀ j, closing? t p = some j → ∀ t' : Text,
        (∀ k, p < k → k ≤ j → t'[k]? = t[k]?) → closing? t' p = some j := by
  refine ⟨fun j => closing?_eq_some_iff_isLeast, ?_, fun j h t' => closing?_congr h⟩
  constructor
  · intro hnone j hj
    have hleast := isLeast_csInf (s := {j | Balances t p j}) ⟨j, hj⟩
    rw [closing?_eq_some_iff_isLeast.mpr hleast] at hnone
    cases hnone
  · intro hno
    cases h : closing? t p with
    | none => rfl
    | some j => exact absurd (closing?_eq_some_iff_isLeast.mp h).1 (hno j)

/-- Two parentheses and an escaped quote lie in one stretch; with another opening character and
nothing after the balancing parenthesis, the same one is found. -/
theorem closing_least_balancing_escaped :
    IsLeast {j | Balances ['(', '\'', '\\', '\'', ')', '(', '\'', 'x', ')', 'y'] 0 j} 8 ∧
      closing? ['\\', '\'', '\\', '\'', ')', '(', '\'', 'x', ')'] 0 = some 8 := by
  obtain ⟨hfinds, -, hlocal⟩ :=
    closing_least_balancing ['(', '\'', '\\', '\'', ')', '(', '\'', 'x', ')', 'y'] 0
  refine ⟨(hfinds 8).mp rfl, hlocal 8 rfl _ fun k hpos hle => ?_⟩
  interval_cases k <;> rfl

end InlineMarkup.Region
