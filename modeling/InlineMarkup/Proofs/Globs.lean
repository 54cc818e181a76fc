import InlineMarkup.Glob

/-!
# What globs match

A glob is matched by filling a table, row by row.  The row of a glob at a text is its answer for
that text and then the row at the rest of it (`row_cons`), so the table can be forgotten: the
equations for `accepts` are those of a match from left to right, one for each item of a glob and
each way that a text can start.  A star matches the texts that end in a match of what follows it
(`accepts_star_iff`).

A text without `*`, `?` and `[` is a glob that matches itself and nothing else
(`accepts_ofText_iff`).

Of a glob that starts with `**/` all variants are tried, and a star matches slashes like all else.
The two together come to what is meant: any number of directories, and none as well
(`excludes_anyDirectories`).
-/

namespace InlineMarkup

namespace Glob

/-! ## 1. The table -/

/-- The first answer in a row is the one for the whole text. -/
theorem exists_row (t : Text) (g : List Item) : ∃ later, row t g = accepts g t :: later := by
  have hne : row t g ≠ [] := by
    induction g with
    | nil => simp [row]
    | cons item g ih =>
      cases item with
      | star =>
        obtain ⟨b, rest, hrow⟩ := List.exists_cons_of_ne_nil ih
        rw [row, hrow, fromHere]
        exact List.cons_ne_nil _ _
      | one set => simp [row]
  obtain ⟨b, later, hrow⟩ := List.exists_cons_of_ne_nil hne
  exact ⟨later, by rw [accepts, hrow, List.headD_cons]⟩

theorem row_nil (g : List Item) : row [] g = [accepts g []] := by
  induction g with
  | nil => rfl
  | cons item g ih =>
    cases item with
    | star =>
      rw [accepts, row, ih]
      rfl
    | one set => rfl

/-- **A row is its answer for the whole text and the row of what follows the first character.** -/
theorem row_cons (c : Char) (t : Text) (g : List Item) :
    row (c :: t) g = accepts g (c :: t) :: row t g := by
  induction g with
  | nil => rfl
  | cons item g ih =>
    cases item with
    | star =>
      rw [accepts, row, ih, row]
      rfl
    | one set =>
      obtain ⟨later, hrow⟩ := exists_row t g
      rw [accepts, row, ih, row, hrow]
      rfl

/-! ## 2. Matching from left to right -/

@[simp]
theorem accepts_nil (t : Text) : accepts [] t = t.isEmpty := by
  cases t <;> rfl

@[simp]
theorem accepts_one_nil (set : CharClass) (g : List Item) : accepts (.one set :: g) [] = false :=
  rfl

@[simp]
theorem accepts_one_cons (set : CharClass) (g : List Item) (c : Char) (t : Text) :
    accepts (.one set :: g) (c :: t) = (set.contains c && accepts g t) := by
  obtain ⟨later, hrow⟩ := exists_row t g
  rw [accepts, row, row_cons, hrow]
  rfl

@[simp]
theorem accepts_star_nil (g : List Item) : accepts (.star :: g) [] = accepts g [] := by
  rw [accepts, row, row_nil]
  exact Bool.or_false _

theorem accepts_star_cons (g : List Item) (c : Char) (t : Text) :
    accepts (.star :: g) (c :: t) = (accepts g (c :: t) || accepts (.star :: g) t) := by
  rw [accepts, row, row_cons]
  rfl

/-- **A star matches the texts that end in a match of what follows it.** -/
theorem accepts_star_iff {g : List Item} : ∀ {t : Text},
    accepts (.star :: g) t = true ↔ ∃ a b, t = a ++ b ∧ accepts g b = true
  | [] => by
    rw [accepts_star_nil]
    constructor
    · exact fun h => ⟨[], [], rfl, h⟩
    · rintro ⟨a, b, hsplit, h⟩
      obtain ⟨-, rfl⟩ := List.append_eq_nil_iff.mp hsplit.symm
      exact h
  | c :: t => by
    rw [accepts_star_cons, Bool.or_eq_true, accepts_star_iff]
    constructor
    · rintro (h | ⟨a, b, rfl, h⟩)
      · exact ⟨[], c :: t, rfl, h⟩
      · exact ⟨c :: a, b, rfl, h⟩
    · rintro ⟨a, b, hsplit, h⟩
      cases a with
      | nil =>
        rw [hsplit]
        exact Or.inl h
      | cons c' a => exact Or.inr ⟨a, b, (List.cons.inj hsplit).2, h⟩

/-! ## 3. Texts that stand for themselves -/

theorem contains_single {c c' : Char} : (CharClass.single c).contains c' = true ↔ c' = c := by
  rw [CharClass.contains, CharClass.single]
  simp only [List.any_cons, List.any_nil, Bool.or_false, Bool.false_bne, Bool.and_eq_true,
    decide_eq_true_eq]
  constructor
  · rintro ⟨hle, hge⟩
    exact Char.toNat_inj.mp (Nat.le_antisymm hge hle)
  · rintro rfl
    exact ⟨Nat.le_refl _, Nat.le_refl _⟩

/-- The characters that do not stand for themselves. -/
def special : Text := ['*', '?', '[']

theorem ofText_cons_of_notMem {c : Char} (h : c ∉ special) (t : Text) :
    ofText (c :: t) = .one (.single c) :: ofText t := by
  simp only [special, List.mem_cons, List.not_mem_nil, or_false, not_or] at h
  rw [ofText, if_neg h.1, if_neg h.2.1, if_neg h.2.2]

/-- **A text without special characters matches itself and nothing else.** -/
theorem accepts_ofText_iff : ∀ {t u : Text}, (∀ c ∈ t, c ∉ special) →
    (accepts (ofText t) u = true ↔ u = t)
  | [], u, _ => by
    rw [ofText, accepts_nil, List.isEmpty_iff]
  | c :: t, u, h => by
    rw [ofText_cons_of_notMem (h c List.mem_cons_self)]
    cases u with
    | nil => simp
    | cons c' u =>
      rw [accepts_one_cons, Bool.and_eq_true, contains_single,
        accepts_ofText_iff fun c'' hc => h c'' (List.mem_cons_of_mem c hc), List.cons.injEq]

/-! ## 4. Directories in front -/

/-- How a glob starts before whose match there may be directories. -/
def anyDirectories : Text := "**/"

theorem variants_anyDirectories (g : Text) :
    variants (anyDirectories ++ g) = (anyDirectories ++ g) :: variants g := rfl

/-- A variant is the glob itself, or there is a variant with one more `**/` in front. -/
theorem eq_or_mem_of_mem_variants {g v : Text} (h : v ∈ variants g) :
    v = g ∨ anyDirectories ++ v ∈ variants g := by
  fun_induction variants g with
  | case1 rest ih =>
    rcases List.mem_cons.mp h with rfl | h
    · exact Or.inl rfl
    · refine Or.inr ?_
      rcases ih h with rfl | hmem
      · exact List.mem_cons_self
      · exact List.mem_cons_of_mem _ hmem
  | case2 g _ => exact Or.inl (List.mem_singleton.mp h)

theorem mem_variants_self (g : Text) : g ∈ variants g := by
  fun_cases variants g with
  | case1 rest => exact List.mem_cons_self
  | case2 _ => exact List.mem_singleton_self _

/-- With `**/` in front a glob matches what it matches behind a slash. -/
theorem accepts_anyDirectories_iff {g t : Text} :
    accepts (ofText (anyDirectories ++ g)) t = true ↔
      ∃ a b, t = a ++ '/' :: b ∧ accepts (ofText g) b = true := by
  have hitems : ofText (anyDirectories ++ g) =
      .star :: .star :: .one (.single '/') :: ofText g := by
    have hslash : '/' ∉ special := by decide
    change ofText ('*' :: '*' :: '/' :: g) = _
    rw [ofText, if_pos rfl, ofText, if_pos rfl, ofText_cons_of_notMem hslash]
  rw [hitems]
  simp only [accepts_star_iff]
  constructor
  · rintro ⟨a, -, rfl, a', u, rfl, h⟩
    cases u with
    | nil => cases h
    | cons c u =>
      rw [accepts_one_cons, Bool.and_eq_true, contains_single] at h
      obtain ⟨rfl, h⟩ := h
      exact ⟨a ++ a', u, by simp, h⟩
  · rintro ⟨a, b, rfl, h⟩
    refine ⟨a, _, rfl, [], _, rfl, ?_⟩
    rw [accepts_one_cons, h, contains_single.mpr rfl]
    rfl

theorem excludes_singleton_iff {g path : Text} :
    excludes [g] path = true ↔ ∃ v ∈ variants g, accepts (ofText v) path = true := by
  simp [excludes]

/-- **A leading `**/` stands for any number of directories, and also for none.**  A path is excluded
by a glob with `**/` in front exactly if the glob excludes the path, or what follows one of its
slashes. -/
theorem excludes_anyDirectories (g path : Text) :
    excludes ["**/" ++ g] path = true ↔
      ∃ lower, (lower = path ∨ ∃ upper, path = upper ++ '/' :: lower) ∧
        excludes [g] lower = true := by
  change excludes [anyDirectories ++ g] path = true ↔ _
  simp only [excludes_singleton_iff, variants_anyDirectories]
  constructor
  · rintro ⟨v, hv, haccepts⟩
    rcases List.mem_cons.mp hv with rfl | hv
    · obtain ⟨upper, lower, hpath, haccepts⟩ := accepts_anyDirectories_iff.mp haccepts
      exact ⟨lower, Or.inr ⟨upper, hpath⟩, g, mem_variants_self g, haccepts⟩
    · exact ⟨path, Or.inl rfl, v, hv, haccepts⟩
  · rintro ⟨lower, rfl | ⟨upper, hpath⟩, v, hv, haccepts⟩
    · exact ⟨v, List.mem_cons_of_mem _ hv, haccepts⟩
    · -- the variant with one more `**/` takes in what stands before the slash
      refine ⟨anyDirectories ++ v, ?_,
        accepts_anyDirectories_iff.mpr ⟨upper, lower, hpath, haccepts⟩⟩
      rcases eq_or_mem_of_mem_variants hv with rfl | hmem
      · exact List.mem_cons_self
      · exact List.mem_cons_of_mem _ hmem

end Glob

end InlineMarkup
