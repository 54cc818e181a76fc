import InlineMarkup.Expansion
import InlineMarkup.Proofs.Characters

/-!
# Regions in their places

The regions of a text stand in it one after another without a common character (`placed_extract`).
`Placed` says so by a decomposition of the text and not by offsets: between the regions are
stretches of other text, and the offsets of a region follow from the lengths before it.

A selection of the regions of a text, in whatever order it is given, is put in order by a pass and
is then placed again (`placed_inOrder`), since a sorted selection is a sublist of the regions
(`inOrder_sublist`).  So is what remains of it after the regions at fault are left out.

Calls are put in place one after the other, and for placed regions that is to weave them in all at
once (`splice_of_placed`): what has been done so far is a text of its own, as long as the offset
that has been reached and the shift together, and what is left has not been touched.  The characters
of the woven text can be counted (`count_weave`): the expressions are gone, the calls have come, and
the rest is as it was.
-/

namespace InlineMarkup

/-! ## 1. Placed regions -/

namespace Region

/-- The region takes up its expression from offset `i` on, and its markup is part of it. -/
structure StandsAt (r : Region) (i : Nat) : Prop where
  ne_nil : r.expression ≠ []
  content : r.content.Sublist r.expression
  start : r.start = i
  stop : r.stop + 1 = (i + r.expression.length : Nat)

/-- Regions that stand in a text one after another; the head of the text has offset `i`. -/
inductive Placed : Nat → Text → List Region → Prop
  | nil {i : Nat} {t : Text} : Placed i t []
  | cons {i : Nat} {before after : Text} {r : Region} {rs : List Region} :
      r.StandsAt (i + before.length) →
      Placed (i + before.length + r.expression.length) after rs →
      Placed i (before ++ (r.expression ++ after)) (r :: rs)

namespace Placed

theorem skip {i : Nat} {t : Text} {rs : List Region} (w : Text) (h : Placed (i + w.length) t rs) :
    Placed i (w ++ t) rs := by
  cases h with
  | nil => exact .nil
  | @cons _ before after r rs hr hrest =>
    rw [← List.append_assoc]
    have hlength : i + w.length + before.length = i + (w ++ before).length := by
      rw [List.length_append]
      omega
    rw [hlength] at hr hrest
    exact .cons hr hrest

/-- Leaving regions out leaves the others in their places. -/
theorem sublist {i : Nat} {t : Text} {rs rs' : List Region} (h : Placed i t rs)
    (hsub : rs'.Sublist rs) : Placed i t rs' := by
  induction h generalizing rs' with
  | nil =>
    rw [List.sublist_nil.mp hsub]
    exact .nil
  | @cons i before after r rs hr _ ih =>
    cases hsub with
    | cons _ hsub =>
      refine .skip before (.skip r.expression ?_)
      exact ih hsub
    | cons_cons _ hsub => exact .cons hr (ih hsub)

theorem le_start {i : Nat} {t : Text} {rs : List Region} (h : Placed i t rs) :
    ∀ r ∈ rs, (i : Int) ≤ r.start := by
  induction h with
  | nil => exact fun r hr => absurd hr List.not_mem_nil
  | cons hr _ ih =>
    intro s hs
    rcases List.mem_cons.mp hs with rfl | hs
    · have hstart := hr.start
      omega
    · have hle := ih s hs
      omega

/-- Placed regions start at different offsets, from left to right. -/
theorem pairwise {i : Nat} {t : Text} {rs : List Region} (h : Placed i t rs) :
    rs.Pairwise fun a b => a.start < b.start := by
  induction h with
  | nil => exact .nil
  | cons hr hrest ih =>
    refine List.pairwise_cons.mpr ⟨?_, ih⟩
    intro s hs
    have hle := hrest.le_start s hs
    have hstart := hr.start
    have hpos := List.length_pos_iff.mpr hr.ne_nil
    omega

theorem standsAt {i : Nat} {t : Text} {rs : List Region} (h : Placed i t rs) :
    ∀ r ∈ rs, ∃ j, r.StandsAt j := by
  induction h with
  | nil => exact fun r hr => absurd hr List.not_mem_nil
  | cons hr _ ih =>
    intro s hs
    rcases List.mem_cons.mp hs with rfl | hs
    · exact ⟨_, hr⟩
    · exact ih s hs

end Placed

/-! ## 2. The regions of a text are placed -/

/-- The closing parenthesis is one of the characters that the walk meets. -/
theorem closeFrom_lt : ∀ {t : Text} {i j depth : Nat} {quote : Option Char} {prev : Char},
    closeFrom i quote prev depth t = some j → j < i + t.length
  | [], _, _, _, _, _, h => by cases h
  | c :: t, i, j, depth, quote, prev, h => by
    have more : ∀ {depth quote}, closeFrom (i + 1) quote c depth t = some j →
        j < i + (c :: t).length := by
      intro depth quote h
      have hlt := closeFrom_lt h
      rw [List.length_cons]
      omega
    rw [closeFrom.eq_def] at h
    dsimp only at h
    split at h
    · exact more h
    · split at h
      · exact more h
      · split at h
        · exact more h
        · split at h
          · split at h
            · rw [← Option.some.inj h, List.length_cons]
              omega
            · exact more h
          · exact more h

theorem standsAt_build {rest : Text} {size : Nat} (h : closeIn rest = some size) (i : Nat) :
    (build i rest size).StandsAt i := by
  have hlt := closeFrom_lt h
  refine ⟨List.cons_ne_nil _ _, ?_, rfl, ?_⟩
  · have htake : (rest.take size).Sublist (rest.take (size + 1)) :=
      (List.take_prefix_take_left (Nat.le_succ size)).sublist
    exact ((Text.trim_sublist _).trans htake).cons _
  · simp only [build, List.length_cons, List.length_take]
    omega

/-- What a walk finds is placed. -/
theorem placed_scanFrom (i : Nat) (t : Text) :
    Placed i t ((Finding.scanFrom i t).filterMap Finding.region?) := by
  induction i, t using Finding.scanFrom.induct with
  | case1 i => rw [Finding.scanFrom]; exact .nil
  | case2 i c rest hopen size hclose ih =>
    rw [Finding.scanFrom, if_pos hopen, hclose]
    have hr := standsAt_build hclose i
    have htext : c :: rest = (build i rest size).expression ++ rest.drop (size + 1) := by
      rw [hopen.1, build, List.cons_append, List.take_append_drop]
    have hlength : i + (build i rest size).expression.length = i + size + 2 := by
      have hstop := hr.stop
      have heq : (build i rest size).stop = i + size + 1 := rfl
      omega
    rw [htext]
    have hrest : Placed (i + (build i rest size).expression.length) (rest.drop (size + 1))
        ((Finding.scanFrom (i + size + 2) (rest.drop (size + 1))).filterMap Finding.region?) :=
      hlength ▸ ih
    exact @Placed.cons i [] _ _ _ hr hrest
  | case3 i c rest hopen hclose ih =>
    rw [Finding.scanFrom, if_pos hopen, hclose]
    exact .skip [c] ih
  | case4 i c rest hopen ih =>
    rw [Finding.scanFrom, if_neg hopen]
    exact .skip [c] ih

/-- **The regions of a text stand in it one after another.** -/
theorem placed_extract (t : Text) : Placed 0 t (extract t) := placed_scanFrom 0 t

theorem nodup_extract (t : Text) : (extract t).Nodup := by
  refine (placed_extract t).pairwise.imp ?_
  rintro a b hlt rfl
  exact Int.lt_irrefl _ hlt

end Region

/-! ## 3. Selections of the regions of a text -/

namespace Expansion

open Region

theorem inOrder_perm (regions : List Region) : (inOrder regions).Perm regions :=
  List.mergeSort_perm _ _

theorem inOrder_pairwise (regions : List Region) :
    (inOrder regions).Pairwise fun a b => a.start ≤ b.start := by
  have h : (inOrder regions).Pairwise fun a b => decide (a.start ≤ b.start) = true := by
    apply List.pairwise_mergeSort
    · intro a b c hab hbc
      simp only [decide_eq_true_eq] at hab hbc ⊢
      omega
    · intro a b
      simp only [Bool.or_eq_true, decide_eq_true_eq]
      omega
  exact h.imp fun hab => of_decide_eq_true hab

theorem inOrder_extract (t : Text) : inOrder (extract t) = extract t := by
  refine List.mergeSort_of_pairwise ((placed_extract t).pairwise.imp ?_)
  intro a b hlt
  exact decide_eq_true (Int.le_of_lt hlt)

/-- The order of regions that start at different offsets, where only a region itself starts at
its offset. -/
def AtOrBefore (a b : Region) : Prop := a = b ∨ a.start < b.start

instance : Std.Antisymm AtOrBefore where
  antisymm a b hab hba := by
    rcases hab with hab | hab
    · exact hab
    · rcases hba with hba | hba
      · exact hba.symm
      · omega

/-- **A selection of the regions of a text is part of them once it is in order.** -/
theorem inOrder_sublist {t : Text} {rs : List Region} (hnodup : rs.Nodup) (hsub : rs ⊆ extract t) :
    (inOrder rs).Sublist (extract t) := by
  have hstrict : (extract t).Pairwise AtOrBefore := (placed_extract t).pairwise.imp Or.inr
  -- regions of the text that start at one offset are the same region
  have hstarts : ∀ a ∈ extract t, ∀ b ∈ extract t, a.start ≤ b.start → AtOrBefore a b := by
    intro a ha b hb hle
    have hnodup : ((extract t).map Region.start).Nodup :=
      List.pairwise_map.mpr ((placed_extract t).pairwise.imp Int.ne_of_lt)
    by_cases heq : a.start = b.start
    · exact Or.inl (List.inj_on_of_nodup_map hnodup ha hb heq)
    · exact Or.inr (by omega)
  have hmem : ∀ a ∈ inOrder rs, a ∈ extract t :=
    fun a ha => hsub ((inOrder_perm rs).mem_iff.mp ha)
  have hsorted : (inOrder rs).Pairwise AtOrBefore :=
    (inOrder_pairwise rs).imp_of_mem fun ha hb hle => hstarts _ (hmem _ ha) _ (hmem _ hb) hle
  have hsubperm : (inOrder rs).Subperm (extract t) :=
    List.subperm_of_subset ((inOrder_perm rs).nodup_iff.mpr hnodup) hmem
  exact List.sublist_of_subperm_of_pairwise hsubperm hsorted hstrict

/-- ...so it is placed. -/
theorem placed_inOrder {t : Text} {rs : List Region} (hnodup : rs.Nodup) (hsub : rs ⊆ extract t) :
    Placed 0 t (inOrder rs) :=
  (placed_extract t).sublist (inOrder_sublist hnodup hsub)

/-- All regions of a text, given in any order, are put in the order of the text. -/
theorem inOrder_of_perm {t : Text} {rs : List Region} (h : rs.Perm (extract t)) :
    inOrder rs = extract t := by
  have hnodup : rs.Nodup := h.nodup_iff.mpr (nodup_extract t)
  refine (inOrder_sublist hnodup h.subset).eq_of_length ?_
  rw [(inOrder_perm rs).length_eq, h.length_eq]

/-- The regions that are replaced are among those tried, in the same order. -/
theorem replacements_sublist (names : Names) (regions : List Region) :
    ((replacements (attempts names regions)).map Prod.fst).Sublist (inOrder regions) := by
  unfold attempts
  generalize inOrder regions = rs
  induction rs with
  | nil => exact List.Sublist.slnil
  | cons r rs ih =>
    rw [List.map_cons, replacements, List.filterMap_cons]
    cases Call.ofMarkup names r.content with
    | ok call => exact ih.cons_cons r
    | error e => exact ih.cons r

theorem ofMarkup_of_mem_replacements {names : Names} {regions : List Region} {p : Region × Text}
    (h : p ∈ replacements (attempts names regions)) :
    Call.ofMarkup names p.1.content = .ok p.2 := by
  obtain ⟨a, ha, hp⟩ := List.mem_filterMap.mp h
  obtain ⟨r, -, rfl⟩ := List.mem_map.mp ha
  dsimp only at hp
  split at hp
  · rename_i call hcall
    rw [← Option.some.inj hp]
    exact hcall
  · cases hp

/-! ## 4. Weaving calls into their places -/

/-- Puts the calls in the places of their regions all at once; `t` is what follows the first `i`
characters. -/
def weave (i : Int) (t : Text) : List (Region × Text) → Text
  | [] => t
  | (r, call) :: rest =>
    t.take (r.start - i).toNat ++
      (call ++ weave (r.stop + 1) (t.drop (r.stop + 1 - i).toNat) rest)

/-- A call takes the place of its region, and the rest is woven after it. -/
theorem weave_cons {i : Nat} {before after : Text} {r : Region}
    (hr : r.StandsAt (i + before.length)) (call : Text) (rest : List (Region × Text)) :
    weave i (before ++ (r.expression ++ after)) ((r, call) :: rest) = before ++
      (call ++ weave (i + before.length + r.expression.length : Nat) after rest) := by
  have hbefore : (r.start - (i : Int)).toNat = before.length := by
    have hstart := hr.start
    omega
  have hthrough : (r.stop + 1 - (i : Int)).toNat = (before ++ r.expression).length := by
    have hstop := hr.stop
    rw [List.length_append]
    omega
  have hrest :
      (before ++ (r.expression ++ after)).drop (before ++ r.expression).length = after := by
    rw [← List.append_assoc, List.drop_left]
  rw [weave, hbefore, hthrough, hr.stop, List.take_left, hrest]

/-- **Calls put in place one after the other are woven in.**  `done` is what the text up to offset
`i` has become. -/
theorem splice_of_placed : ∀ {calls : List (Region × Text)} {i : Nat} {t done : Text} {shift : Int},
    Placed i t (calls.map Prod.fst) → (done.length : Int) = i + shift →
    splice (done ++ t) shift calls = done ++ weave i t calls := by
  intro calls
  induction calls with
  | nil =>
    intro i t done shift _ _
    rw [splice, weave]
  | cons p calls ih =>
    obtain ⟨r, call⟩ := p
    intro i t done shift h hdone
    change Placed i t (r :: calls.map Prod.fst) at h
    cases h with
    | @cons _ before after _ _ hr hrest =>
      have hstart : r.start + shift = (done ++ before).length := by
        rw [List.length_append]
        have hat := hr.start
        omega
      have hstop : r.stop + shift + 1 = (done ++ before ++ r.expression).length := by
        rw [List.length_append, List.length_append]
        have hat := hr.stop
        omega
      have hbefore : (done ++ (before ++ (r.expression ++ after))).before (r.start + shift) =
          done ++ before := by
        rw [hstart, ← List.append_assoc]
        exact Text.before_append _ _
      have hafter : (done ++ (before ++ (r.expression ++ after))).after (r.stop + shift + 1) =
          after := by
        rw [hstop, ← List.append_assoc, ← List.append_assoc]
        exact Text.after_append _ _
      -- the call has taken the place of the expression, and the shift has changed by the difference
      have hmoved : ((done ++ before ++ call).length : Int) =
          (i + before.length + r.expression.length : Nat) +
            (shift + (call.length - (r.stop + shift + 1 - (r.start + shift)))) := by
        rw [hstart, hstop]
        simp only [List.length_append]
        omega
      rw [splice, hbefore, hafter, weave_cons hr, ih hrest hmoved, List.append_assoc,
        List.append_assoc]

theorem replaceAll_of_placed {t : Text} {calls : List (Region × Text)}
    (h : Placed 0 t (calls.map Prod.fst)) : replaceAll t calls = weave 0 t calls :=
  @splice_of_placed calls 0 t [] 0 h rfl

/-- **Weaving takes out the expressions and puts in the calls**, character by character. -/
theorem count_weave (x : Char) : ∀ {calls : List (Region × Text)} {i : Nat} {t : Text},
    Placed i t (calls.map Prod.fst) →
    (weave i t calls).count x + (calls.map fun p => p.1.expression.count x).sum =
      t.count x + (calls.map fun p => p.2.count x).sum
  | [], _, _, _ => rfl
  | (r, call) :: rest, i, t, h => by
    change Placed i t (r :: rest.map Prod.fst) at h
    cases h with
    | @cons _ before after _ _ hr hrest =>
      have ih := count_weave x hrest
      rw [weave_cons hr]
      simp only [List.count_append, List.map_cons, List.sum_cons]
      omega

end Expansion

end InlineMarkup
