import InlineMarkup.Proofs.Extraction
import InlineMarkup.Proofs.MarkCount

/-!
# A call opens no regions of its own

A call is put together from names, literals, code, separators and indentation, and the text that
comes out is scanned for regions.  An opening takes a `(` and, past blanks, a `<`; so it might come
about where two pieces meet, one that ends in `(` and one that starts with `<`.  It does not: the
pieces after which code or a literal follows end in no `(`, and behind code and literals no piece
starts with `<`.  This is what makes the number of openings a tally (`tally_openings`), and what
holds of tallies holds of it: a call has no more openings than the literals and the code of its
markup (`openings_ofMarkup_le`).
-/

namespace InlineMarkup

namespace Region

/-! ## 1. The openings of a text -/

instance (t : Text) (p : Nat) : Decidable (OpensAt t p) := decidable_of_iff _ opensAt_iff.symm

/-- The offsets at which a region may open, balanced or not. -/
def openings (t : Text) : List Nat := (List.range t.length).filter fun p => OpensAt t p

theorem mem_openings {t : Text} {p : Nat} : p ∈ openings t ↔ OpensAt t p := by
  rw [openings, List.mem_filter, List.mem_range, decide_eq_true_eq, and_iff_right_iff_imp]
  exact fun h => (List.getElem?_eq_some_iff.mp h.1).1

theorem openings_eq_nil_iff {t : Text} : openings t = [] ↔ ∀ p, ¬ OpensAt t p := by
  simp only [List.eq_nil_iff_forall_not_mem, mem_openings]

theorem opensAt_zero {c : Char} {t : Text} :
    OpensAt (c :: t) 0 ↔ c = '(' ∧ opensMarkup t = true := by
  rw [opensAt_iff, List.getElem?_cons_zero, Option.some.injEq, List.drop_one, List.tail_cons]

theorem opensAt_succ {c : Char} {t : Text} {p : Nat} : OpensAt (c :: t) (p + 1) ↔ OpensAt t p := by
  rw [opensAt_iff, opensAt_iff, List.getElem?_cons_succ, List.drop_succ_cons]

/-- An opening is at the first character or in the rest. -/
theorem length_openings_cons (c : Char) (t : Text) : (openings (c :: t)).length =
    (if c = '(' ∧ opensMarkup t = true then 1 else 0) + (openings t).length := by
  have hrest : (List.range t.length).filter ((fun p => decide (OpensAt (c :: t) p)) ∘ Nat.succ) =
      openings t := by
    refine List.filter_congr fun p _ => ?_
    exact decide_eq_decide.mpr opensAt_succ
  rw [openings, List.length_cons, List.range_succ_eq_map, List.filter_cons, List.filter_map, hrest]
  simp only [decide_eq_true_eq, opensAt_zero]
  split
  · rw [List.length_cons, List.length_map, Nat.add_comm]
  · rw [List.length_map, Nat.zero_add]

/-! ## 2. Openings where pieces meet -/

/-- What goes on with markup does so whatever stands behind it. -/
theorem opensMarkup_append {a b : Text} (h : opensMarkup a = true) :
    opensMarkup (a ++ b) = true := by
  obtain ⟨w, v, hw, rfl⟩ := opensMarkup_iff.mp h
  exact opensMarkup_iff.mpr ⟨w, v ++ b, hw, List.append_assoc ..⟩

/-- A text does not go on with markup for the sake of one behind it that does not. -/
theorem opensMarkup_append_of_not {a b : Text} (h : opensMarkup b = false) :
    opensMarkup (a ++ b) = opensMarkup a := by
  unfold opensMarkup at h ⊢
  rw [List.dropWhile_append]
  cases a.dropWhile Text.isBlank with
  | nil => exact h
  | cons c rest => rfl

theorem length_openings_append {a b : Text} (h : opensMarkup b = false) :
    (openings (a ++ b)).length = (openings a).length + (openings b).length := by
  induction a with
  | nil => exact (Nat.zero_add _).symm
  | cons c a ih =>
    rw [List.cons_append, length_openings_cons, length_openings_cons, opensMarkup_append_of_not h,
      ih, Nat.add_assoc]

theorem length_openings_skip {a b : Text} (h : '(' ∉ a) :
    (openings (a ++ b)).length = (openings b).length := by
  induction a with
  | nil => rfl
  | cons c a ih =>
    have hc : c ≠ '(' := fun hc => h (hc ▸ List.mem_cons_self)
    rw [List.cons_append, length_openings_cons, if_neg fun hopen => hc hopen.1, Nat.zero_add,
      ih fun hmem => h (List.mem_cons_of_mem _ hmem)]

theorem length_openings_le_append_left (a t : Text) :
    (openings t).length ≤ (openings (a ++ t)).length := by
  induction a with
  | nil => exact Nat.le_refl _
  | cons c a ih =>
    rw [List.cons_append, length_openings_cons]
    omega

theorem length_openings_le_append_right (t b : Text) :
    (openings t).length ≤ (openings (t ++ b)).length := by
  induction t with
  | nil => exact Nat.zero_le _
  | cons c t ih =>
    rw [List.cons_append, length_openings_cons, length_openings_cons]
    -- an opening at the first character stays one, since only more text stands behind it
    split
    · rename_i hopen
      rw [if_pos ⟨hopen.1, opensMarkup_append hopen.2⟩]
      omega
    · omega

/-- **The number of openings is a tally.** -/
theorem tally_openings : Tally fun t => (openings t).length where
  unmarked h := by
    refine List.length_eq_zero_iff.mpr (openings_eq_nil_iff.mpr fun p hp => ?_)
    obtain ⟨-, q, -, hq, -⟩ := hp
    exact h (List.mem_of_getElem? hq)
  append := length_openings_append
  skip hopen _ := length_openings_skip hopen
  piece := by
    rintro t u ⟨a, b, rfl⟩
    exact (length_openings_le_append_left a t).trans (length_openings_le_append_right _ b)

/-! ## 3. The openings of a call -/

theorem extract_of_openings_eq_nil {t : Text} (h : openings t = []) : extract t = [] := by
  refine List.eq_nil_iff_forall_not_mem.mpr fun m hm => ?_
  obtain ⟨p, q, hregion⟩ := isRegionOf_of_mem_extract hm
  exact openings_eq_nil_iff.mp h p hregion.opens

/-- A call whose markup has no opening in a literal or in code has no opening. -/
theorem openings_call_eq_nil {names : Names} (hnames : names.Unmarked) {markup call : Text}
    (h : Call.ofMarkup names markup = .ok call)
    (hnone : ∀ t ∈ (Lexed.ofText markup).tokens, t.kind.isVerbatim = true →
      openings t.lexeme = []) : openings call = [] := by
  have hle := tally_openings.call_le hnames h
  have htotal : Token.total (fun t => (openings t).length) (Lexed.ofText markup).tokens = 0 := by
    refine List.sum_eq_zero fun n hn => ?_
    obtain ⟨t, ht, rfl⟩ := List.mem_map.mp hn
    obtain ⟨hmem, hkind⟩ := List.mem_filter.mp ht
    exact List.length_eq_zero_iff.mpr (hnone t hmem hkind)
  exact List.length_eq_zero_iff.mp (by omega)

end Region

open Region

/-- **A call opens no regions of its own.**

There are no more openings in a call than there are in the literals and the code among the tokens of
its markup.  If there are none in these, the call has no region. -/
theorem openings_ofMarkup_le {names : Names} (hnames : names.Unmarked) {markup call : Text}
    (h : Call.ofMarkup names markup = .ok call) :
    ∃ tokens, Token.ofText markup = .ok tokens ∧
      (openings call).length ≤
        ((tokens.filter fun t => t.kind.isVerbatim).map fun t => (openings t.lexeme).length).sum ∧
      ((∀ t ∈ tokens, t.kind.isVerbatim = true → openings t.lexeme = []) → extract call = []) := by
  refine ⟨_, Call.ofText_of_ofMarkup h, tally_openings.call_le hnames h, fun hnone => ?_⟩
  exact extract_of_openings_eq_nil (openings_call_eq_nil hnames h hnone)

/-- A literal with a region in it, running text that ends in a parenthesis, and code with a region
in it: the two regions are all that opens in the call, although the code follows the text. -/
theorem openings_ofMarkup_le_mixed :
    let markup : Text := "<a b=\"(<c/>)\">( \x7b(<d/>)\x7d</a>"
    let call : Text := "Document.CreateElement(\"a\", new HtmlAProps \x7b B = \"(<c/>)\" \x7d" ++
      ",\n    \"(\",\n    (<d/>)\n)"
    ({} : Names).Unmarked ∧ Call.ofMarkup {} markup = .ok call ∧ (openings call).length = 2 ∧
      ∃ tokens, Token.ofText markup = .ok tokens ∧
        (openings call).length ≤ ((tokens.filter fun t => t.kind.isVerbatim).map fun t =>
          (openings t.lexeme).length).sum := by
  intro markup call
  have hcall : Call.ofMarkup {} markup = .ok call := by decide +kernel
  obtain ⟨tokens, htokens, hle, -⟩ := openings_ofMarkup_le Names.unmarked_default hcall
  exact ⟨Names.unmarked_default, hcall, by decide +kernel, tokens, htokens, hle⟩

end InlineMarkup
