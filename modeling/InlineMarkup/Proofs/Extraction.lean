import InlineMarkup.Proofs.Placement

/-!
# The regions of a text are its outermost ones

A region may open wherever a `(` is followed, past blanks, by `<` (`OpensAt`), and it closes at the
parenthesis that `closing?` finds.  `extract` lists regions from left to right, none of which
reaches into the next; each is what stands between two such parentheses, and its markup is what is
left without the blanks around it (`IsRegionOf`).

It misses none.  A walk steps over a region as a whole, so an opening inside of one is not a region
of its own; but an opening that nothing balances is passed by a single character.  So every opening
that has a balancing parenthesis lies in a region that is listed (`covered_scanFrom`), whatever
unbalanced openings stand before it.

That the search for the balancing parenthesis looks at nothing past what it finds
(`closeFrom_split`) is what lets the two ways of starting it, at the head of a text and at an offset
in it, be taken for one (`closing?_eq_some_iff`).
-/

namespace InlineMarkup

namespace Region

/-! ## 1. The balancing parenthesis -/

/-- The quote that a walk is inside of after character `c`, which stands after `prev`. -/
def quoteAfter (quote : Option Char) (prev c : Char) : Option Char :=
  match quote with
  | some q => if c = q ∧ prev ≠ '\\' then none else some q
  | none => if isQuote c then some c else none

/-- One step of the search: outside quotes a parenthesis changes the depth, and all else only
changes the quote. -/
theorem closeFrom_cons (i : Nat) (quote : Option Char) (prev : Char) (depth : Nat) (c : Char)
    (t : Text) : closeFrom i quote prev depth (c :: t) =
      if quote = none ∧ c = '(' then closeFrom (i + 1) none c (depth + 1) t
      else if quote = none ∧ c = ')' then
        match depth with
        | 0 => some i
        | depth + 1 => closeFrom (i + 1) none c depth t
      else closeFrom (i + 1) (quoteAfter quote prev c) c depth t := by
  cases quote with
  | some q => simp [closeFrom, quoteAfter]
  | none =>
    by_cases hq : isQuote c = true
    · have hopen : c ≠ '(' := by rintro rfl; exact absurd hq (by decide)
      have hclose : c ≠ ')' := by rintro rfl; exact absurd hq (by decide)
      simp [closeFrom, quoteAfter, hq, hopen, hclose]
    · cases depth <;> simp [closeFrom, quoteAfter, hq]

/-- **The balancing parenthesis is determined by what stands before it.**  What follows it has no
say in it, nor has the count. -/
theorem closeFrom_split : ∀ {t : Text} {i j depth : Nat} {quote : Option Char} {prev : Char},
    closeFrom i quote prev depth t = some j →
    ∃ u v, t = u ++ ')' :: v ∧ j = i + u.length ∧
      ∀ k rest, closeFrom k quote prev depth (u ++ ')' :: rest) = some (k + u.length)
  | [], _, _, _, _, _, h => by cases h
  | c :: t, i, j, depth, quote, prev, h => by
    -- a step that only goes on, whatever follows, adds its character to what stands before
    have more : ∀ {quote' : Option Char} {depth' : Nat},
        (∀ k rest, closeFrom k quote prev depth (c :: rest) =
          closeFrom (k + 1) quote' c depth' rest) →
        ∃ u v, c :: t = u ++ ')' :: v ∧ j = i + u.length ∧
          ∀ k rest, closeFrom k quote prev depth (u ++ ')' :: rest) = some (k + u.length) := by
      intro quote' depth' hstep
      rw [hstep] at h
      obtain ⟨u, v, rfl, rfl, hu⟩ := closeFrom_split h
      refine ⟨c :: u, v, rfl, ?_, ?_⟩
      · simp only [List.length_cons]
        omega
      · intro k rest
        rw [List.cons_append, hstep, hu, List.length_cons, Option.some.injEq]
        omega
    by_cases hopen : quote = none ∧ c = '('
    · exact more fun k rest => by rw [closeFrom_cons, if_pos hopen]
    · by_cases hclose : quote = none ∧ c = ')'
      · cases depth with
        | zero =>
          rw [closeFrom_cons, if_neg hopen, if_pos hclose, Option.some.injEq] at h
          refine ⟨[], t, by rw [hclose.2]; rfl, h.symm, ?_⟩
          intro k rest
          rw [List.nil_append, hclose.1]
          rfl
        | succ depth =>
          exact more fun k rest => by rw [closeFrom_cons, if_neg hopen, if_pos hclose]
      · exact more fun k rest => by rw [closeFrom_cons, if_neg hopen, if_neg hclose]

theorem closeIn_eq_some {t : Text} {size : Nat} (h : closeIn t = some size) :
    ∃ u v, t = u ++ ')' :: v ∧ u.length = size := by
  obtain ⟨u, v, ht, hsize, -⟩ := closeFrom_split h
  exact ⟨u, v, ht, by omega⟩

/-- Searching from an offset is searching in what follows it. -/
theorem closing?_eq_some_iff {t : Text} {p q : Nat} :
    closing? t p = some q ↔ ∃ size, closeIn (t.drop (p + 1)) = some size ∧ q = p + 1 + size := by
  constructor
  · intro h
    obtain ⟨u, v, ht, hq, hu⟩ := closeFrom_split h
    refine ⟨u.length, ?_, hq⟩
    rw [ht, closeIn, hu, Nat.zero_add]
  · rintro ⟨size, h, rfl⟩
    obtain ⟨u, v, ht, hsize, hu⟩ := closeFrom_split h
    rw [closing?, ht, hu, hsize, Nat.zero_add]

/-! ## 2. Openings -/

/-- A region may open at offset `p`: there stands a `(`, and the first character after it that is
not blank is `<`. -/
def OpensAt (t : Text) (p : Nat) : Prop :=
  t[p]? = some '(' ∧
    ∃ q, p < q ∧ t[q]? = some '<' ∧
      ∀ k c, p < k → k < q → t[k]? = some c → Text.isBlank c = true

/-- Markup follows when blanks and then a `<` do. -/
theorem opensMarkup_iff {t : Text} :
    opensMarkup t = true ↔ ∃ w v, Text.AllBlank w ∧ t = w ++ '<' :: v := by
  constructor
  · intro h
    unfold opensMarkup at h
    split at h
    · rename_i c v hdrop
      have hc : c = '<' := by simpa using h
      refine ⟨t.takeWhile Text.isBlank, v, Text.allBlank_takeWhile t, ?_⟩
      rw [← hc, ← hdrop, List.takeWhile_append_dropWhile]
    · cases h
  · rintro ⟨w, v, hw, rfl⟩
    have hdrop : (w ++ '<' :: v).dropWhile Text.isBlank = '<' :: v := by
      rw [Text.dropWhile_append_of_allBlank hw, List.dropWhile_cons_of_neg (by decide)]
    simp [opensMarkup, hdrop]

/-- An opening in terms of the two parts of the text around its parenthesis. -/
theorem opensAt_iff {t : Text} {p : Nat} :
    OpensAt t p ↔ t[p]? = some '(' ∧ opensMarkup (t.drop (p + 1)) = true := by
  rw [OpensAt, opensMarkup_iff]
  refine and_congr_right fun _ => ?_
  constructor
  · rintro ⟨q, hlt, hq, hblank⟩
    obtain ⟨d, rfl⟩ : ∃ d, q = p + 1 + d := ⟨q - (p + 1), by omega⟩
    rw [← List.getElem?_drop] at hq
    obtain ⟨hd, hlast⟩ := List.getElem?_eq_some_iff.mp hq
    refine ⟨(t.drop (p + 1)).take d, (t.drop (p + 1)).drop (d + 1), ?_, ?_⟩
    · intro c hc
      obtain ⟨k, hk⟩ := List.getElem?_of_mem hc
      rw [List.getElem?_take] at hk
      split at hk
      · rw [List.getElem?_drop] at hk
        exact hblank (p + 1 + k) c (by omega) (by omega) hk
      · cases hk
    · rw [← hlast, ← List.drop_eq_getElem_cons hd, List.take_append_drop]
  · rintro ⟨w, v, hw, hdrop⟩
    have hget : ∀ k, t[p + 1 + k]? = (w ++ '<' :: v)[k]? := fun k => by
      rw [← hdrop, List.getElem?_drop]
    refine ⟨p + 1 + w.length, by omega, ?_, ?_⟩
    · rw [hget]
      simp
    · intro k c hlt hk hc
      obtain ⟨d, rfl⟩ : ∃ d, k = p + 1 + d := ⟨k - (p + 1), by omega⟩
      rw [hget, List.getElem?_append_left (by omega)] at hc
      exact hw c (List.mem_of_getElem? hc)

/-! ## 3. What a region is -/

/-- `m` is the region of `t` between the parentheses at offsets `p` and `q`. -/
structure IsRegionOf (t : Text) (m : Region) (p q : Nat) : Prop where
  start : m.start = p
  stop : m.stop = q
  opens : OpensAt t p
  closes : closing? t p = some q
  closer : t[q]? = some ')'
  expression : m.expression = (t.drop p).take (q + 1 - p)
  layout : ∃ w₁ w₂, Text.AllBlank w₁ ∧ Text.AllBlank w₂ ∧
    m.expression = '(' :: (w₁ ++ (m.content ++ (w₂ ++ [')'])))
  head : m.content.head? = some '<'
  last : ∀ c ∈ m.content.getLast?, Text.isBlank c = false

/-- The markup between the parentheses starts with the `<` that made it markup.  Were it blank, the
closing parenthesis would come first. -/
theorem head_trim {u v : Text} (h : opensMarkup (u ++ ')' :: v) = true) :
    (Text.trim u).head? = some '<' := by
  obtain ⟨w, x, hw, heq⟩ := opensMarkup_iff.mp h
  obtain ⟨a, b, ha, hb, hu, hsolid⟩ := Text.trim_spec u
  have hdrop := congrArg (List.dropWhile Text.isBlank) heq
  rw [hu, List.append_assoc, Text.dropWhile_append_of_allBlank ha,
    Text.dropWhile_append_of_allBlank hw, List.dropWhile_cons_of_neg (by decide)] at hdrop
  cases htrim : Text.trim u with
  | nil =>
    rw [htrim, List.nil_append, Text.dropWhile_append_of_allBlank hb,
      List.dropWhile_cons_of_neg (by decide)] at hdrop
    cases hdrop
  | cons c y =>
    have hc : Text.isBlank c = false := hsolid.head c (by rw [htrim]; rfl)
    rw [htrim, List.append_assoc, List.cons_append,
      List.dropWhile_cons_of_neg (by rw [hc]; decide)] at hdrop
    rw [(List.cons.inj hdrop).1]
    rfl

theorem isRegionOf_build {t : Text} {p size : Nat} (hp : t[p]? = some '(')
    (hopen : opensMarkup (t.drop (p + 1)) = true) (hclose : closeIn (t.drop (p + 1)) = some size) :
    IsRegionOf t (build p (t.drop (p + 1)) size) p (p + 1 + size) := by
  obtain ⟨u, v, hrest, hsize⟩ := closeIn_eq_some hclose
  have htake : (t.drop (p + 1)).take size = u := by rw [hrest, List.take_left' hsize]
  have hthrough : (t.drop (p + 1)).take (size + 1) = u ++ [')'] := by
    rw [hrest, ← hsize, show u ++ ')' :: v = (u ++ [')']) ++ v by simp,
      List.take_left' (by simp)]
  have hdrop : t.drop p = '(' :: t.drop (p + 1) := by
    obtain ⟨hlt, hget⟩ := List.getElem?_eq_some_iff.mp hp
    rw [← hget, List.drop_eq_getElem_cons hlt]
  obtain ⟨a, b, ha, hb, hu, hsolid⟩ := Text.trim_spec u
  refine ⟨rfl, ?_, opensAt_iff.mpr ⟨hp, hopen⟩, closing?_eq_some_iff.mpr ⟨size, hclose, rfl⟩,
    ?_, ?_, ⟨a, b, ha, hb, ?_⟩, ?_, ?_⟩
  · simp only [build]
    omega
  · rw [← List.getElem?_drop, hrest]
    simp [← hsize]
  · rw [hdrop, show p + 1 + size + 1 - p = (size + 1) + 1 by omega, List.take_succ_cons]
    rfl
  · simp only [build, htake, hthrough]
    conv_lhs => rw [hu]
    simp
  · simp only [build, htake]
    exact head_trim (hrest ▸ hopen)
  · simp only [build, htake]
    exact hsolid.last

/-! ## 4. The walk over a text -/

/-- The head of what is left of a text, and the rest. -/
theorem drop_eq_cons {t rest : Text} {c : Char} {i : Nat} (h : t.drop i = c :: rest) :
    t[i]? = some c ∧ t.drop (i + 1) = rest := by
  constructor
  · have hget := congrArg List.head? h
    rwa [List.head?_drop] at hget
  · rw [← List.drop_drop, h]
    rfl

/-- **What a walk lists is there.**  The walk is over what follows the first `i` characters. -/
theorem isRegionOf_scanFrom (t : Text) (i : Nat) (s : Text) (hs : t.drop i = s) :
    ∀ m ∈ (Finding.scanFrom i s).filterMap Finding.region?, ∃ p q, IsRegionOf t m p q := by
  induction i, s using Finding.scanFrom.induct with
  | case1 i =>
    rw [Finding.scanFrom]
    exact fun m hm => absurd hm List.not_mem_nil
  | case2 i c rest hopen size hclose ih =>
    obtain ⟨hc, rfl⟩ := drop_eq_cons hs
    rw [Finding.scanFrom, if_pos hopen, hclose]
    intro m hm
    rcases List.mem_cons.mp hm with rfl | hm
    · exact ⟨i, _, isRegionOf_build (by rw [hc, hopen.1]) hopen.2 hclose⟩
    · refine ih ?_ m hm
      rw [List.drop_drop]
      congr 1
      omega
  | case3 i c rest hopen hclose ih =>
    rw [Finding.scanFrom, if_pos hopen, hclose]
    exact ih (drop_eq_cons hs).2
  | case4 i c rest hopen ih =>
    rw [Finding.scanFrom, if_neg hopen]
    exact ih (drop_eq_cons hs).2

/-- **What is there lies in something that a walk lists**, from where the walk starts on. -/
theorem covered_scanFrom (t : Text) (i : Nat) (s : Text) (hs : t.drop i = s) :
    ∀ p q, i ≤ p → OpensAt t p → closing? t p = some q →
      ∃ m ∈ (Finding.scanFrom i s).filterMap Finding.region?, m.start ≤ p ∧ (p : Int) ≤ m.stop := by
  induction i, s using Finding.scanFrom.induct with
  | case1 i =>
    intro p q hle hopens _
    have hlt := (List.getElem?_eq_some_iff.mp hopens.1).1
    have hend := List.drop_eq_nil_iff.mp hs
    omega
  | case2 i c rest hopen size hclose ih =>
    obtain ⟨-, rfl⟩ := drop_eq_cons hs
    rw [Finding.scanFrom, if_pos hopen, hclose]
    intro p q hle hopens hq
    by_cases hinside : p ≤ i + size + 1
    · refine ⟨_, List.mem_cons_self, ?_, ?_⟩
      · simp only [build]
        omega
      · simp only [build]
        omega
    · have hrest : t.drop (i + size + 2) = (t.drop (i + 1)).drop (size + 1) := by
        rw [List.drop_drop]
        congr 1
        omega
      obtain ⟨m, hm, hcovers⟩ := ih hrest p q (by omega) hopens hq
      exact ⟨m, List.mem_cons_of_mem _ hm, hcovers⟩
  | case3 i c rest hopen hclose ih =>
    obtain ⟨-, rfl⟩ := drop_eq_cons hs
    rw [Finding.scanFrom, if_pos hopen, hclose]
    intro p q hle hopens hq
    rcases Nat.eq_or_lt_of_le hle with rfl | hlt
    · obtain ⟨size, hsize, -⟩ := closing?_eq_some_iff.mp hq
      rw [hclose] at hsize
      cases hsize
    · exact ih rfl p q hlt hopens hq
  | case4 i c rest hopen ih =>
    obtain ⟨hc, rfl⟩ := drop_eq_cons hs
    rw [Finding.scanFrom, if_neg hopen]
    intro p q hle hopens hq
    rcases Nat.eq_or_lt_of_le hle with rfl | hlt
    · obtain ⟨hparen, hmarkup⟩ := opensAt_iff.mp hopens
      rw [hc, Option.some.injEq] at hparen
      exact absurd ⟨hparen, hmarkup⟩ hopen
    · exact ih rfl p q hlt hopens hq

/-- Placed regions end before the next one starts. -/
theorem Placed.stop_lt_start {i : Nat} {t : Text} {rs : List Region} (h : Placed i t rs) :
    rs.Pairwise fun a b => a.stop < b.start := by
  induction h with
  | nil => exact .nil
  | cons hr hrest ih =>
    refine List.pairwise_cons.mpr ⟨?_, ih⟩
    intro s hs
    have hle := hrest.le_start s hs
    have hstop := hr.stop
    omega

/-! ## 5. All regions -/

theorem isRegionOf_of_mem_extract {t : Text} {m : Region} (h : m ∈ extract t) :
    ∃ p q, IsRegionOf t m p q :=
  isRegionOf_scanFrom t 0 t rfl m h

/-- **The regions of a text are its outermost ones, and none is missed.**

They are listed from left to right, each ending before the next one starts.  Each is what stands
between an opening and its balancing parenthesis, with markup that starts with `<` and has no blank
at its end, and only blanks around the markup.  Every opening that has a balancing parenthesis lies
in one of them. -/
theorem extract_outermost (t : Text) :
    (extract t).Pairwise (fun a b => a.stop < b.start) ∧
      (∀ m ∈ extract t, ∃ p q, IsRegionOf t m p q) ∧
      ∀ p q, OpensAt t p → closing? t p = some q →
        ∃ m ∈ extract t, m.start ≤ p ∧ (p : Int) ≤ m.stop :=
  ⟨(placed_extract t).stop_lt_start, isRegionOf_scanFrom t 0 t rfl,
    fun p q => covered_scanFrom t 0 t rfl p q (Nat.zero_le p)⟩

end Region

end InlineMarkup
