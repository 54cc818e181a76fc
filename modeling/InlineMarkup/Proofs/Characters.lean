import Mathlib
import InlineMarkup.Text.LetterCase
import InlineMarkup.Token.Literal

/-!
# What the character classes exclude

The readers of this library branch on single characters, and the order of the branches matters
only where two classes meet.  This module says where they do not: a blank is no part of a name
(`isNamePart_of_isBlank`), no mark of the markup is either, and raising a character to upper case
never yields a `<` that was not there (`lt_notMem_upperCase`).

The tables behind the classes are long.  Each fact about them is one evaluation over the shorter
side: the blanks are a handful, and so are the forms that raising a character can take.

The second half is about trimming: a trimmed text is a piece of the text it comes from, and it is
its own trimmed form (`trim_trim`), which holds exactly of the texts whose two end characters are
not blank (`trim_eq_self_iff`).
-/

namespace InlineMarkup

namespace Text

/-! ## 1. Blanks -/

/-- The code points in closed ranges, one by one. -/
def codePoints (ranges : List (Nat × Nat)) : List Nat :=
  ranges.flatMap fun r => List.range' r.1 (r.2 + 1 - r.1)

theorem mem_codePoints_of_inRanges {ranges : List (Nat × Nat)} {n : Nat}
    (h : inRanges ranges n = true) : n ∈ codePoints ranges := by
  obtain ⟨r, hr, hn⟩ := List.any_eq_true.mp h
  simp only [Bool.and_eq_true, decide_eq_true_eq] at hn
  refine List.mem_flatMap.mpr ⟨r, hr, ?_⟩
  rw [List.mem_range'_1]
  omega

/-- A property of the blanks is settled by looking at each of them. -/
theorem of_isBlank {p : Char → Prop} (h : ∀ n ∈ codePoints blankRanges, p (Char.ofNat n))
    {c : Char} (hc : isBlank c = true) : p c := by
  have hp := h c.toNat (mem_codePoints_of_inRanges hc)
  rwa [Char.ofNat_toNat] at hp

/-- **A blank is no part of a name**, so a name ends before the first blank. -/
theorem isNamePart_of_isBlank {c : Char} (h : isBlank c = true) :
    Literal.isNamePart c = false :=
  of_isBlank (p := fun c => Literal.isNamePart c = false) (by decide +kernel) h

/-! ## 2. Names -/

/-- A character that can start a name can also go on with one. -/
theorem isNamePart_of_isNameStart {c : Char} (h : Literal.isNameStart c = true) :
    Literal.isNamePart c = true := by
  simp only [Literal.isNameStart, Bool.or_eq_true] at h
  simp only [Literal.isNamePart, Bool.or_eq_true]
  rcases h with h | h
  · refine Or.inl (Or.inl ?_)
    unfold isLetterOrNumber
    split
    · rename_i hlow
      rw [isLetter, if_pos hlow] at h
      simp only [Char.isAlphanum, Bool.or_eq_true]
      exact Or.inl h
    · rw [h, Bool.true_or]
  · exact Or.inl (Or.inr h)

theorem isBlank_of_isNameStart {c : Char} (h : Literal.isNameStart c = true) :
    isBlank c = false := by
  by_contra hb
  rw [Bool.not_eq_false] at hb
  have h1 := isNamePart_of_isBlank hb
  have h2 := isNamePart_of_isNameStart h
  rw [h1] at h2
  exact absurd h2 (by decide)

/-! ## 3. Upper case -/

theorem ofNat_ne_of_ne {n : Nat} (h : n ≠ 0x3c) : Char.ofNat n ≠ '<' := by
  intro heq
  have hn : (Char.ofNat n).toNat = 0x3c := by rw [heq]; rfl
  unfold Char.ofNat at hn
  split at hn
  · exact h hn
  · exact absurd hn (by decide)

/-- **Raising a character yields no `<`** unless it was one. -/
theorem lt_notMem_upperCase {c : Char} (h : c ≠ '<') : '<' ∉ upperCase c := by
  have hlow : ∀ n < 0x80, n ≠ 0x3c → (Char.ofNat n).toUpper ≠ '<' := by decide +kernel
  have hlong : ∀ r ∈ raisedLong, 0x3c ∉ r.2 := by decide +kernel
  have hruns : ∀ r ∈ raisedRuns, 0x3c < r.2.2.2 := by decide +kernel
  unfold upperCase
  split
  · rename_i hc
    have hne : c.toNat ≠ 0x3c := fun heq => h (Char.toNat_inj.mp heq)
    have hup := hlow c.toNat hc hne
    rw [Char.ofNat_toNat] at hup
    rw [List.mem_singleton]
    exact hup.symm
  · split
    · rename_i form hform
      obtain ⟨l₁, l₂, heq, -⟩ := List.lookup_eq_some_iff.mp hform
      have hno : 0x3c ∉ form := hlong (c.toNat, form) (by rw [heq]; simp)
      intro hmem
      obtain ⟨n, hn, hlt⟩ := List.mem_map.mp hmem
      exact ofNat_ne_of_ne (fun h => hno (h ▸ hn)) hlt
    · split
      · rename_i r hr
        have := hruns r (List.mem_of_find?_eq_some hr)
        rw [List.mem_singleton]
        exact (ofNat_ne_of_ne (by omega)).symm
      · rw [List.mem_singleton]
        exact h.symm

/-! ## 4. Trimming -/

/-- A text of blanks only. -/
def AllBlank (t : Text) : Prop := ∀ c ∈ t, isBlank c = true

/-- No blank stands at either end of the text. -/
structure Solid (t : Text) : Prop where
  head : ∀ c ∈ t.head?, isBlank c = false
  last : ∀ c ∈ t.getLast?, isBlank c = false

theorem allBlank_takeWhile (t : Text) : AllBlank (t.takeWhile isBlank) :=
  fun _ hc => (List.mem_takeWhile_imp hc)

theorem dropWhile_append_of_allBlank {a t : Text} (ha : AllBlank a) :
    (a ++ t).dropWhile isBlank = t.dropWhile isBlank := by
  rw [List.dropWhile_append, List.dropWhile_eq_nil_iff.mpr ha]
  simp

theorem dropWhile_of_head {t : Text} (h : ∀ c ∈ t.head?, isBlank c = false) :
    t.dropWhile isBlank = t := by
  cases t with
  | nil => rfl
  | cons c r =>
    have hc : isBlank c = false := h c (by simp)
    rw [List.dropWhile_cons, hc]
    simp

theorem head_dropWhile (t : Text) : ∀ c ∈ (t.dropWhile isBlank).head?, isBlank c = false := by
  intro c hc
  have := List.head?_dropWhile_not isBlank t
  rw [Option.mem_def] at hc
  rw [hc] at this
  simpa using this

/-- The end of a text is trimmed as its start is, from the other side. -/
theorem trimEnd_append_of_allBlank {t b : Text} (hb : AllBlank b)
    (ht : ∀ c ∈ t.getLast?, isBlank c = false) : trimEnd (t ++ b) = t := by
  have hb' : AllBlank b.reverse := fun c hc => hb c (List.mem_reverse.mp hc)
  unfold trimEnd
  rw [List.reverse_append, dropWhile_append_of_allBlank hb', dropWhile_of_head (by simpa using ht),
    List.reverse_reverse]

theorem trimEnd_spec (t : Text) :
    ∃ b, AllBlank b ∧ t = trimEnd t ++ b ∧ ∀ c ∈ (trimEnd t).getLast?, isBlank c = false := by
  refine ⟨(t.reverse.takeWhile isBlank).reverse, ?_, ?_, ?_⟩
  · exact fun c hc => allBlank_takeWhile _ c (List.mem_reverse.mp hc)
  · unfold trimEnd
    rw [← List.reverse_append, List.takeWhile_append_dropWhile, List.reverse_reverse]
  · unfold trimEnd
    rw [List.getLast?_reverse]
    exact head_dropWhile t.reverse

/-- **What trimming does.**  It takes blanks away at the two ends, and it leaves none there. -/
theorem trim_spec (t : Text) :
    ∃ a b, AllBlank a ∧ AllBlank b ∧ t = a ++ (trim t ++ b) ∧ Solid (trim t) := by
  obtain ⟨b, hb, heq, hlast⟩ := trimEnd_spec (t.dropWhile isBlank)
  refine ⟨t.takeWhile isBlank, b, allBlank_takeWhile t, hb, ?_, ?_, hlast⟩
  · unfold trim
    rw [← heq, List.takeWhile_append_dropWhile]
  · intro c hc
    refine head_dropWhile t c ?_
    rw [heq, List.head?_append, Option.mem_def]
    unfold trim at hc
    rw [Option.mem_def] at hc
    rw [hc]
    rfl

/-- ...and this determines the trimmed text. -/
theorem trim_eq {a m b : Text} (ha : AllBlank a) (hb : AllBlank b) (hm : Solid m)
    (hne : m ≠ []) : trim (a ++ (m ++ b)) = m := by
  unfold trim
  rw [dropWhile_append_of_allBlank ha, dropWhile_of_head, trimEnd_append_of_allBlank hb hm.last]
  intro c hc
  refine hm.head c ?_
  cases m with
  | nil => exact absurd rfl hne
  | cons d r => simpa using hc

theorem trim_of_solid {t : Text} (h : Solid t) : trim t = t := by
  cases t with
  | nil => rfl
  | cons c r =>
    have := trim_eq (a := []) (b := []) (fun _ hc => by cases hc) (fun _ hc => by cases hc) h
      (List.cons_ne_nil c r)
    simpa using this

/-- **A text is its own trimmed form exactly when no blank stands at its ends.** -/
theorem trim_eq_self_iff {t : Text} : trim t = t ↔ Solid t := by
  constructor
  · intro h
    obtain ⟨-, -, -, -, -, hs⟩ := trim_spec t
    rwa [h] at hs
  · exact trim_of_solid

theorem trim_trim (t : Text) : trim (trim t) = trim t := by
  obtain ⟨-, -, -, -, -, hs⟩ := trim_spec t
  exact trim_of_solid hs

/-- A trimmed text is a piece of the text. -/
theorem trim_isInfix (t : Text) : trim t <:+: t := by
  obtain ⟨a, b, -, -, heq, -⟩ := trim_spec t
  exact ⟨a, b, by rw [List.append_assoc, ← heq]⟩

theorem trim_sublist (t : Text) : (trim t).Sublist t := (trim_isInfix t).sublist

end Text

end InlineMarkup
