import InlineMarkup.Proofs.Extraction
import InlineMarkup.Proofs.Passes

/-!
# A pass is a simultaneous substitution

What a pass makes of a text can be said character by character (`substitute`).  A character outside
of the regions that are expanded stands for itself; at the first character of such a region stands
its call, and the others are gone.  Neither the order of the regions nor what has become of the text
before a place comes into it.

Calls are put in place one after the other, with a count of how far the text has moved; for placed
regions that is to weave them in all at once, and weaving is a substitution (`weave_eq_flatMap`).

A pass looks at the regions in the order of the text.  So it does not matter in which order they are
given, and the passes that follow differ in nothing but the log (`unlogged_finish`).
-/

namespace InlineMarkup

open Region

/-! ## 1. The substitution -/

/-- Offset `k` lies in the region. -/
def Region.covers (k : Nat) (m : Region) : Bool := decide (m.start ≤ k ∧ (k : Int) ≤ m.stop)

/-- The call in the place of the region; nothing if its markup is at fault. -/
def Region.callText (names : Names) (m : Region) : Text :=
  match Call.ofMarkup names m.content with
  | .ok call => call
  | .error _ => []

namespace Expansion

/-- What stands for the character `c` at offset `k` when the regions are expanded. -/
def substituted (names : Names) (regions : List Region) (c : Char) (k : Nat) : Text :=
  match regions.find? fun m => m.covers k && !m.fails names with
  | none => [c]
  | some m => if m.start = k then m.callText names else []

/-- The text in which the regions are expanded, all at once. -/
def substitute (names : Names) (regions : List Region) (t : Text) : Text :=
  t.zipIdx.flatMap fun p => substituted names regions p.1 p.2

/-! ## 2. Calls woven in, character by character -/

/-- What stands for the character `c` at offset `k` when calls are put in the places of regions. -/
def wovenAt (calls : List (Region × Text)) (c : Char) (k : Nat) : Text :=
  match calls.find? fun p => p.1.covers k with
  | none => [c]
  | some p => if p.1.start = k then p.2 else []

/-- Characters outside of a region are not changed by it. -/
theorem wovenAt_cons_outside {r : Region} {k : Nat} (h : k < r.start ∨ r.stop < k) (call : Text)
    (calls : List (Region × Text)) (c : Char) :
    wovenAt ((r, call) :: calls) c k = wovenAt calls c k := by
  have hno : r.covers k = false := by
    rw [covers, decide_eq_false_iff_not]
    omega
  rw [wovenAt, List.find?_cons, hno]
  rfl

/-- Those in a region stand for its call, or for nothing. -/
theorem wovenAt_cons_inside {r : Region} {k : Nat} (hstart : r.start ≤ k)
    (hstop : (k : Int) ≤ r.stop) (call : Text) (calls : List (Region × Text)) (c : Char) :
    wovenAt ((r, call) :: calls) c k = if r.start = k then call else [] := by
  have hyes : r.covers k = true := decide_eq_true ⟨hstart, hstop⟩
  rw [wovenAt, List.find?_cons, hyes]

theorem wovenAt_of_lt {calls : List (Region × Text)} {k : Nat}
    (h : ∀ r ∈ calls.map Prod.fst, (k : Int) < r.start) (c : Char) : wovenAt calls c k = [c] := by
  induction calls with
  | nil => rfl
  | cons p calls ih =>
    rw [wovenAt_cons_outside (.inl (h p.1 List.mem_cons_self))]
    exact ih fun r hr => h r (List.mem_cons_of_mem _ hr)

/-- A stretch in which the offsets have no say. -/
theorem flatMap_zipIdx {f : Char → Nat → Text} {g : Char → Text} {t : Text} : ∀ {i : Nat},
    (∀ c k, i ≤ k → k < i + t.length → f c k = g c) →
    ((t.zipIdx i).flatMap fun p => f p.1 p.2) = t.flatMap g := by
  induction t with
  | nil =>
    intro i _
    rfl
  | cons c t ih =>
    intro i h
    rw [List.length_cons] at h
    have hrest := @ih (i + 1) fun d k hle hlt => h d k (by omega) (by omega)
    rw [List.zipIdx_cons, List.flatMap_cons, List.flatMap_cons, hrest,
      h c i (Nat.le_refl i) (by omega)]

/-- **Weaving calls into placed regions is a substitution.** -/
theorem weave_eq_flatMap : ∀ {calls : List (Region × Text)} {i : Nat} {t : Text},
    Placed i t (calls.map Prod.fst) →
    weave i t calls = (t.zipIdx i).flatMap fun p => wovenAt calls p.1 p.2 := by
  intro calls
  induction calls with
  | nil =>
    intro i t _
    have hkept := @flatMap_zipIdx (wovenAt []) (fun c => [c]) t i fun c k _ _ => rfl
    rw [hkept, weave, List.flatMap_singleton']
  | cons p calls ih =>
    obtain ⟨r, call⟩ := p
    intro i t h
    change Placed i t (r :: calls.map Prod.fst) at h
    cases h with
    | @cons _ before after _ _ hr hrest =>
      have hstart := hr.start
      have hstop := hr.stop
      obtain ⟨x, inside, hx⟩ := List.exists_cons_of_ne_nil hr.ne_nil
      have hlength : r.expression.length = inside.length + 1 := by rw [hx, List.length_cons]
      -- before the region nothing is changed, for the later regions start after it
      have hbefore := @flatMap_zipIdx (wovenAt ((r, call) :: calls)) (fun c => [c]) before i
        fun c k _ hk => by
          refine wovenAt_of_lt ?_ c
          intro s hs
          rcases List.mem_cons.mp hs with rfl | hs
          · omega
          · have hle := hrest.le_start s hs
            omega
      -- the first character of the region gives the call, and the others give nothing
      have hfirst : wovenAt ((r, call) :: calls) x (i + before.length) = call := by
        rw [wovenAt_cons_inside (by omega) (by omega), if_pos hstart]
      have hinside := @flatMap_zipIdx (wovenAt ((r, call) :: calls)) (fun _ => []) inside
        (i + before.length + 1) fun c k hle hk => by
          rw [wovenAt_cons_inside (by omega) (by omega), if_neg (by omega)]
      have hnone : inside.flatMap (fun _ => ([] : Text)) = [] :=
        List.flatMap_eq_nil_iff.mpr fun _ _ => rfl
      -- after it only the later regions count
      have hafter : ((after.zipIdx (i + before.length + r.expression.length)).flatMap
          fun p => wovenAt ((r, call) :: calls) p.1 p.2) =
          (after.zipIdx (i + before.length + r.expression.length)).flatMap
            fun p => wovenAt calls p.1 p.2 := by
        refine List.flatMap_congr ?_
        intro p hp
        have hle := (List.mem_zipIdx hp).1
        exact wovenAt_cons_outside (.inr (by omega)) call calls p.1
      rw [weave_cons hr, ih hrest, List.zipIdx_append, List.zipIdx_append, List.flatMap_append,
        List.flatMap_append, hbefore, hafter, hx, List.zipIdx_cons, List.flatMap_cons, hfirst,
        hinside, List.flatMap_singleton', hnone, List.append_nil]

/-! ## 3. The regions of a pass -/

/-- Among placed regions at most one covers an offset. -/
theorem eq_of_covers {i k : Nat} {t : Text} {rs : List Region} (h : Placed i t rs) {a b : Region}
    (ha : a ∈ rs) (hb : b ∈ rs) (hak : a.covers k = true) (hbk : b.covers k = true) : a = b := by
  have hsymm : Std.Symm fun a b : Region => ¬ (a.covers k = true ∧ b.covers k = true) :=
    ⟨fun a b hab hba => hab hba.symm⟩
  have hapart : rs.Pairwise fun a b => ¬ (a.covers k = true ∧ b.covers k = true) := by
    refine h.stop_lt_start.imp ?_
    rintro a b hlt ⟨hak, hbk⟩
    rw [covers, decide_eq_true_eq] at hak hbk
    omega
  by_contra hne
  exact hapart.forall ha hb hne ⟨hak, hbk⟩

/-- What a search finds in a list does not depend on the order, when it can find but one. -/
theorem find?_of_perm {rs rs' : List Region} {hit : Region → Bool} (h : rs.Perm rs')
    (honly : ∀ a ∈ rs, ∀ b ∈ rs, hit a = true → hit b = true → a = b) :
    rs.find? hit = rs'.find? hit := by
  cases hfind : rs.find? hit with
  | none =>
    rw [List.find?_eq_none] at hfind
    symm
    rw [List.find?_eq_none]
    exact fun m hm => hfind m (h.mem_iff.mpr hm)
  | some a =>
    have hmem := List.mem_of_find?_eq_some hfind
    have hhit := List.find?_some hfind
    cases hfind' : rs'.find? hit with
    | none =>
      rw [List.find?_eq_none] at hfind'
      exact absurd hhit (hfind' a (h.mem_iff.mp hmem))
    | some b =>
      have hmem' := h.mem_iff.mpr (List.mem_of_find?_eq_some hfind')
      rw [honly a hmem b hmem' hhit (List.find?_some hfind')]

theorem substituted_inOrder {names : Names} {t : Text} {regions : List Region}
    (hnodup : regions.Nodup) (hsub : regions ⊆ extract t) (c : Char) (k : Nat) :
    substituted names (inOrder regions) c k = substituted names regions c k := by
  have hplaced := placed_inOrder hnodup hsub
  unfold substituted
  rw [find?_of_perm (inOrder_perm regions)]
  intro a ha b hb hahit hbhit
  rw [Bool.and_eq_true] at hahit hbhit
  exact eq_of_covers hplaced ha hb hahit.1 hbhit.1

/-- The calls of a pass, where regions at fault are left out. -/
theorem wovenAt_replacements (names : Names) (rs : List Region) (c : Char) (k : Nat) :
    wovenAt (replacements (rs.map fun m => ⟨m, Call.ofMarkup names m.content⟩)) c k =
      substituted names rs c k := by
  induction rs with
  | nil => rfl
  | cons m rs ih =>
    rw [List.map_cons]
    cases hcall : Call.ofMarkup names m.content with
    | error e =>
      have hfails : m.fails names = true := Region.fails_iff.mpr ⟨e, hcall⟩
      rw [replacements_error rfl, ih, substituted, substituted, List.find?_cons, hfails,
        Bool.not_true, Bool.and_false]
    | ok call =>
      have hfails : m.fails names = false := by
        rw [Region.fails, hcall]
        rfl
      have hcallText : m.callText names = call := by rw [callText, hcall]
      rw [replacements_ok rfl, wovenAt, substituted, List.find?_cons, List.find?_cons, hfails,
        Bool.not_false, Bool.and_true]
      cases m.covers k with
      | true =>
        change (if m.start = k then call else []) = if m.start = k then m.callText names else []
        rw [hcallText]
      | false => exact ih

/-- **The calls of a pass over a selection of regions are substituted.** -/
theorem weave_replacements {names : Names} {t : Text} {regions : List Region}
    (hnodup : regions.Nodup) (hsub : regions ⊆ extract t) :
    weave 0 t (replacements (attempts names regions)) = substitute names regions t := by
  have hplaced := (placed_inOrder hnodup hsub).sublist (replacements_sublist names regions)
  refine (weave_eq_flatMap hplaced).trans (List.flatMap_congr ?_)
  intro p _
  rw [attempts, wovenAt_replacements, substituted_inOrder hnodup hsub]

/-! ## 4. All but the log -/

end Expansion

namespace Expanded

/-- An outcome without its log. -/
def unlogged (r : Expanded) : Expanded := { r with log := [] }

theorem unlogged_eq_iff {r s : Expanded} : r.unlogged = s.unlogged ↔
    r.text = s.text ∧ r.expansions = s.expansions ∧ r.passes = s.passes ∧
      r.reported = s.reported := by
  simp [unlogged]

end Expanded

namespace Expansion

open Expanded (unlogged_eq_iff)

/-- Recording outcomes never looks at the log. -/
theorem unlogged_record : ∀ {tried : List Attempt} {failing : List Text} {r s : Expanded},
    r.unlogged = s.unlogged →
    (record failing r tried).unlogged = (record failing s tried).unlogged := by
  intro tried
  induction tried with
  | nil =>
    intro failing r s h
    exact h
  | cons a rest ih =>
    intro failing r s h
    obtain ⟨htext, hexpansions, hpasses, hreported⟩ := unlogged_eq_iff.mp h
    rw [record, record]
    dsimp only
    rw [hexpansions, hreported]
    have hrest := fun expansions reported log log' =>
      @unlogged_eq_iff ⟨r.text, expansions, r.passes, reported, log⟩
        ⟨s.text, expansions, s.passes, reported, log'⟩ |>.mpr ⟨htext, rfl, hpasses, rfl⟩
    split
    · exact ih (hrest _ _ _ _)
    · split
      · exact ih (hrest _ _ _ _)
      · exact ih (hrest _ _ _ _)

variable {names : Names} {found found' : List Finding} {r s : Expanded}

/-- Passes that try the same differ in nothing but the log. -/
theorem unlogged_pass
    (htried : attempts names (found.filterMap Finding.region?) =
      attempts names (found'.filterMap Finding.region?)) (h : r.unlogged = s.unlogged) :
    (pass names found r).1.unlogged = (pass names found' s).1.unlogged ∧
      (pass names found r).2 = (pass names found' s).2 := by
  have hlength : (found.filterMap Finding.region?).length =
      (found'.filterMap Finding.region?).length := by
    have heq := congrArg List.length htried
    rwa [attempts, attempts, List.length_map, List.length_map, (inOrder_perm _).length_eq,
      (inOrder_perm _).length_eq] at heq
  cases hfound : found.filterMap Finding.region? with
  | nil =>
    have hfound' : found'.filterMap Finding.region? = [] := by
      rw [hfound] at hlength
      exact List.eq_nil_of_length_eq_zero hlength.symm
    rw [pass_of_nil hfound, pass_of_nil hfound']
    exact ⟨h, rfl⟩
  | cons m ms =>
    obtain ⟨m', ms', hfound'⟩ : ∃ m' ms', found'.filterMap Finding.region? = m' :: ms' := by
      rw [hfound] at hlength
      exact List.exists_cons_of_length_eq_add_one hlength.symm
    rw [hfound, hfound'] at htried
    obtain ⟨htext, hexpansions, hpasses, hreported⟩ := unlogged_eq_iff.mp h
    have hstart : ({ r with passes := r.passes + 1, log := r.log ++ skipped found } :
        Expanded).unlogged =
        ({ s with passes := s.passes + 1, log := s.log ++ skipped found' } : Expanded).unlogged :=
      unlogged_eq_iff.mpr ⟨htext, hexpansions, congrArg (· + 1) hpasses, hreported⟩
    have hrecord := @unlogged_record (attempts names (m' :: ms')) [] _ _ hstart
    obtain ⟨htext', hexpansions', hpasses', hreported'⟩ := unlogged_eq_iff.mp hrecord
    simp only [pass, hfound, hfound', htried]
    cases replacements (attempts names (m' :: ms')) with
    | nil => exact ⟨unlogged_eq_iff.mpr ⟨htext', hexpansions', hpasses', hreported'⟩, rfl⟩
    | cons p calls =>
      exact ⟨unlogged_eq_iff.mpr ⟨congrArg (replaceAll · (p :: calls)) htext', hexpansions',
        hpasses', hreported'⟩, rfl⟩

/-- So do all passes that follow. -/
theorem finish_of_runs {history : List (List Region)} {r' : Expanded}
    (h : Runs names found r history r')
    (htried : attempts names (found.filterMap Finding.region?) =
      attempts names (found'.filterMap Finding.region?)) (hrs : r.unlogged = s.unlogged) :
    ∃ s', s.finish names found' = some s' ∧ r'.unlogged = s'.unlogged := by
  induction h generalizing found' s with
  | idle _ hpass | last _ hpass =>
    have hstep := unlogged_pass htried hrs
    rw [hpass] at hstep
    refine ⟨(pass names found' s).1, ?_, hstep.1⟩
    rw [Expanded.finish, ← Prod.mk.eta (p := pass names found' s), ← hstep.2]
  | more hpass _ ih =>
    have hstep := unlogged_pass htried hrs
    rw [hpass] at hstep
    have htext := (unlogged_eq_iff.mp hstep.1).1
    obtain ⟨s', hs', hlast⟩ := ih (by rw [htext]) hstep.1
    refine ⟨s', ?_, hlast⟩
    rw [Expanded.finish, ← Prod.mk.eta (p := pass names found' s), ← hstep.2]
    exact hs'

/-- **Passes that first try the same have the same outcome, the log apart**, or none both. -/
theorem unlogged_finish
    (htried : attempts names (found.filterMap Finding.region?) =
      attempts names (found'.filterMap Finding.region?)) (hrs : r.unlogged = s.unlogged) :
    (r.finish names found).map Expanded.unlogged =
      (s.finish names found').map Expanded.unlogged := by
  cases hr : r.finish names found with
  | some r' =>
    obtain ⟨history, hruns⟩ := finish_eq_some_iff.mp hr
    obtain ⟨s', hs', heq⟩ := finish_of_runs hruns htried hrs
    rw [hs']
    exact congrArg some heq
  | none =>
    cases hs : s.finish names found' with
    | none => rfl
    | some s' =>
      obtain ⟨history, hruns⟩ := finish_eq_some_iff.mp hs
      obtain ⟨r', hr', -⟩ := finish_of_runs hruns htried.symm hrs.symm
      rw [hr] at hr'
      cases hr'

/-! ## 5. The text of a pass, and the outcome of all -/

theorem text_pass (names : Names) (found : List Finding) (r : Expanded) :
    (pass names found r).1.text =
      replaceAll r.text (replacements (attempts names (found.filterMap Finding.region?))) := by
  by_cases hnil : found.filterMap Finding.region? = []
  · have hcalls : replacements (attempts names []) = [] :=
      replacements_eq_nil_iff.mpr fun m hm => absurd hm List.not_mem_nil
    rw [pass_of_nil hnil, hnil, hcalls, replaceAll_nil]
  · exact (passed_of_pass hnil rfl).1.text

/-- **A pass is a simultaneous substitution.**

Let regions of a text be given, each once, in any order.  Putting the calls in their places one
after the other, with a count of how far the text has moved, and the pass as a whole lead to one
text: every given region whose markup is not at fault has become its call, and every other character
is where it was.

When all regions of the text are given, the outcome of all passes does not differ from the one where
the regions are looked for: there is none for either, or the two agree in all but the log. -/
theorem pass_substitutes {names : Names} {t : Text} {regions : List Region}
    (hnodup : regions.Nodup) (hsub : regions ⊆ extract t) :
    splice t 0 (replacements (attempts names regions)) = substitute names regions t ∧
      (∀ r : Expanded, r.text = t →
        (pass names (regions.map .region) r).1.text = substitute names regions t) ∧
      (regions.Perm (extract t) →
        (Expanded.finish names (regions.map .region) { text := t }).map Expanded.unlogged =
            (Expanded.finish names (Finding.scan t) { text := t }).map Expanded.unlogged ∧
          (expandGiven names t regions).unlogged = (expand names t).unlogged) := by
  have hplaced := (placed_inOrder hnodup hsub).sublist (replacements_sublist names regions)
  refine ⟨?_, ?_, ?_⟩
  · rw [← weave_replacements hnodup hsub]
    exact @splice_of_placed _ 0 t [] 0 hplaced rfl
  · intro r hr
    rw [text_pass, regions_given, hr, replaceAll_of_placed hplaced,
      weave_replacements hnodup hsub]
  · intro hperm
    have htried : attempts names ((regions.map Finding.region).filterMap Finding.region?) =
        attempts names ((Finding.scan t).filterMap Finding.region?) := by
      change _ = attempts names (extract t)
      rw [regions_given, attempts, attempts, inOrder_of_perm hperm, inOrder_extract]
    have hpasses := @unlogged_finish names _ _ { text := t } _ htried rfl
    refine ⟨hpasses, ?_⟩
    rw [expandGiven, expand, complete, complete, ← Option.getD_map Expanded.unlogged,
      ← Option.getD_map Expanded.unlogged, hpasses]

/-- Three of four regions, from right to left.  The second of the text is at fault, and the last is
not given.  Then all four, in the same order. -/
theorem pass_substitutes_rightToLeft :
    let t : Text := "(<a/>) (<d>) x(<b/>) (<c/>)"
    let regions := (extract t).reverse.tail
    regions.Nodup ∧ regions ⊆ extract t ∧ regions.length = 3 ∧
      (pass {} (regions.map .region) { text := t }).1.text =
        ("Document.CreateElement(\"a\", new HtmlAProps \x7b \x7d) (<d>) " ++
          "xDocument.CreateElement(\"b\", new HtmlBProps \x7b \x7d) (<c/>)" : String) ∧
      (expandGiven {} t (extract t).reverse).unlogged = (expand {} t).unlogged := by
  intro t regions
  have hnodup : (extract t).reverse.Nodup := List.nodup_reverse.mpr (nodup_extract t)
  have hsub : (extract t).reverse ⊆ extract t := fun m hm => List.mem_reverse.mp hm
  have hsub' : regions ⊆ extract t := List.Subset.trans (List.tail_subset _) hsub
  have hselected := @pass_substitutes {} t regions hnodup.tail hsub'
  have hall := @pass_substitutes {} t _ hnodup hsub
  have htext : substitute {} regions t =
      ("Document.CreateElement(\"a\", new HtmlAProps \x7b \x7d) (<d>) " ++
        "xDocument.CreateElement(\"b\", new HtmlBProps \x7b \x7d) (<c/>)" : String) := by
    decide +kernel
  refine ⟨hnodup.tail, hsub', by decide +kernel, ?_, ?_⟩
  · exact (hselected.2.1 _ rfl).trans htext
  · exact (hall.2.2 (List.reverse_perm _)).2

end Expansion

end InlineMarkup
