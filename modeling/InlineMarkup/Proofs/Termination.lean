import InlineMarkup.Proofs.AcceptedNames
import InlineMarkup.Proofs.Passes

/-!
# Expansion comes to an end

Each call has fewer `<` than the markup it replaces, so a pass over placed regions removes at least
one `<` for every region that it expands (`count_replaceAll_le`).  The `<` of the text are a
measure of what can still be done: there is a run over every text (`exists_runs`), and the number of
expansions is bounded by the `<` of the text at the start (`Runs.marks_le`).

The regions of the first pass may be given instead of being looked for.  Whatever they are, the
passes after the first are over the regions of their texts, so they end all the same
(`runs_complete`).  That the first pass keeps to the measure takes given regions that are
regions of the text.
-/

namespace InlineMarkup

/-- Expands a text; the regions of the first pass may be given. -/
def expandWith (names : Names) (t : Text) : Option (List Region) → Expanded
  | none => expand names t
  | some regions => expandGiven names t regions

namespace Expansion

open Region

/-- What the first pass over a text goes by. -/
def firstFindings (t : Text) : Option (List Region) → List Finding
  | none => Finding.scan t
  | some regions => regions.map .region

/-! ## 1. What a pass removes -/

variable {names : Names} {found : List Finding} {r r' : Expanded} {regions : List Region}

/-- **A pass over regions of the text removes a `<` for every region that it expands.** -/
theorem count_replaceAll_le (hnames : names.Unmarked) {t : Text} (hnodup : regions.Nodup)
    (hsub : regions ⊆ extract t) :
    (replaceAll t (replacements (attempts names regions))).count '<' +
      (replacements (attempts names regions)).length ≤ t.count '<' := by
  have hplaced := (placed_inOrder hnodup hsub).sublist (replacements_sublist names regions)
  have hless : ∀ p ∈ replacements (attempts names regions),
      p.2.count '<' + 1 ≤ p.1.expression.count '<' := by
    intro p hp
    obtain ⟨j, hstands⟩ := hplaced.standsAt p.1 (List.mem_map_of_mem hp)
    calc p.2.count '<' + 1
        ≤ p.1.content.count '<' :=
          Call.count_lt_of_ofMarkup hnames (ofMarkup_of_mem_replacements hp)
      _ ≤ p.1.expression.count '<' := hstands.content.count_le '<'
  have hsum := List.sum_le_sum hless
  rw [List.sum_map_add] at hsum
  have hcount := count_weave '<' hplaced
  rw [Nat.cast_zero] at hcount
  rw [replaceAll_of_placed hplaced]
  simp only [List.map_const', List.sum_replicate, smul_eq_mul, Nat.mul_one] at hsum
  omega

theorem Passed.marks_le (hnames : names.Unmarked) (h : Passed names regions r r')
    (hnodup : regions.Nodup) (hsub : regions ⊆ extract r.text) :
    r'.succeeded.length + r'.text.count '<' ≤ r.succeeded.length + r.text.count '<' := by
  have hle := count_replaceAll_le hnames hnodup hsub
  rw [h.succeeded, h.text]
  omega

/-! ## 2. Whole runs -/

/-- **A run spends the `<` of its text**: one for every expansion. -/
theorem Runs.marks_le (hnames : names.Unmarked) {history : List (List Region)}
    (h : Runs names found r history r') (hnodup : (found.filterMap Finding.region?).Nodup)
    (hsub : found.filterMap Finding.region? ⊆ extract r.text) :
    r'.succeeded.length + r'.text.count '<' ≤ r.succeeded.length + r.text.count '<' := by
  induction h with
  | idle hnil hpass =>
    rw [eq_of_pass_nil hnil hpass]
    exact Nat.le_refl _
  | last hne hpass => exact (passed_of_pass hne hpass).1.marks_le hnames hnodup hsub
  | @more _ _ r₁ _ _ hpass _ ih =>
    have hfirst := (passed_of_more hpass).1.marks_le hnames hnodup hsub
    have hrest := ih (nodup_extract r₁.text) (List.Subset.refl _)
    omega

/-- A pass over the regions of its text that gives a reason for another has removed a `<`. -/
theorem marks_lt_of_more (hnames : names.Unmarked)
    (h : pass names (Finding.scan r.text) r = (r', true)) :
    r'.text.count '<' < r.text.count '<' := by
  have hpassed : Passed names (extract r.text) r r' := (passed_of_more h).1
  have hcalls : replacements (attempts names (extract r.text)) ≠ [] := (passed_of_more h).2
  have hle := count_replaceAll_le hnames (nodup_extract r.text) (List.Subset.refl _)
  have hpos := List.length_pos_iff.mpr hcalls
  rw [hpassed.text]
  omega

/-- **Passes end**, whatever the first goes by.  The induction is on a bound for the `<` of the text
that the first pass leaves, if it gives a reason for another. -/
theorem exists_runs (hnames : names.Unmarked) : ∀ (bound : Nat) (found : List Finding)
    (r : Expanded), (∀ r₁, pass names found r = (r₁, true) → r₁.text.count '<' < bound) →
    ∃ history r', Runs names found r history r' := by
  intro bound
  induction bound with
  | zero =>
    intro found r h
    rcases hpass : pass names found r with ⟨r₁, _ | _⟩
    · obtain ⟨history, hruns⟩ := exists_runs_of_pass hpass
      exact ⟨history, r₁, hruns⟩
    · exact absurd (h r₁ hpass) (Nat.not_lt_zero _)
  | succ bound ih =>
    intro found r h
    rcases hpass : pass names found r with ⟨r₁, _ | _⟩
    · obtain ⟨history, hruns⟩ := exists_runs_of_pass hpass
      exact ⟨history, r₁, hruns⟩
    · obtain ⟨history, r', hruns⟩ := ih (Finding.scan r₁.text) r₁ fun r₂ hmore =>
        Nat.lt_of_lt_of_le (marks_lt_of_more hnames hmore) (Nat.le_of_lt_succ (h r₁ hpass))
      exact ⟨_, r', .more hpass hruns⟩

/-- **Expansion ends** at the outcome of a run. -/
theorem runs_complete (hnames : names.Unmarked) (t : Text) (found : List Finding) :
    ∃ history, Runs names found { text := t } history (complete names t found) := by
  obtain ⟨history, r', hruns⟩ := exists_runs hnames
    ((pass names found { text := t }).1.text.count '<' + 1) found { text := t } fun r₁ hpass => by
      rw [hpass]
      exact Nat.lt_succ_self _
  rw [complete_of_runs hruns]
  exact ⟨history, hruns⟩

theorem runs_expand (hnames : names.Unmarked) (t : Text) :
    ∃ history, Runs names (Finding.scan t) { text := t } history (expand names t) :=
  runs_complete hnames t (Finding.scan t)

theorem expandWith_eq_complete (names : Names) (t : Text) : ∀ given : Option (List Region),
    expandWith names t given = complete names t (firstFindings t given)
  | none => rfl
  | some _ => rfl

theorem runs_expandWith (hnames : names.Unmarked) (t : Text) (given : Option (List Region)) :
    ∃ history, Runs names (firstFindings t given) { text := t } history
      (expandWith names t given) := by
  rw [expandWith_eq_complete]
  exact runs_complete hnames t (firstFindings t given)

/-- Regions of the text that are given are a selection for the first pass, as those looked for
are. -/
theorem firstFindings_selected {t : Text} {given : Option (List Region)}
    (h : ∀ regions ∈ given, regions.Nodup ∧ regions ⊆ extract t) :
    ((firstFindings t given).filterMap Finding.region?).Nodup ∧
      (firstFindings t given).filterMap Finding.region? ⊆ extract t := by
  cases given with
  | none => exact ⟨nodup_extract t, List.Subset.refl _⟩
  | some regions =>
    rw [firstFindings, regions_given]
    exact h regions rfl

end Expansion

/-! ## 3. The bound -/

open Expansion in
/-- **Expansion comes to an end within the `<` of the text.**

The names that settings accept hold no `<`.  With such names, each call has fewer `<` than its
markup; and a text is expanded in finitely many passes, whether the regions of the first pass are
looked for or given, as long as those given are regions of the text, in any order and none of them
twice.  Each expansion takes up one of the `<` of the text, and there is at most one more pass than
there are expansions. -/
theorem expansion_spends_marks :
    (∀ d cwd root file s, Project.loadSettings d cwd root file = .ok s → s.names.Unmarked) ∧
    (∀ names o names', names.Unmarked → Settings.override names o = .ok names' →
      names'.Unmarked) ∧
    ∀ names : Names, names.Unmarked →
      (∀ markup call, Call.ofMarkup names markup = .ok call →
        call.count '<' < markup.count '<') ∧
      ∀ (t : Text) (given : Option (List Region)),
        (∀ regions ∈ given, regions.Nodup ∧ regions ⊆ Region.extract t) →
        ∃ history, Runs names (firstFindings t given) { text := t } history
            (expandWith names t given) ∧
          (expandWith names t given).passes = history.length ∧
          (expandWith names t given).succeeded.length +
            (expandWith names t given).text.count '<' ≤ t.count '<' ∧
          (expandWith names t given).passes ≤ (expandWith names t given).succeeded.length + 1 := by
  refine ⟨fun _ _ _ _ _ h => Project.unmarked_of_loadSettings h,
    fun _ _ _ hnames h => Settings.unmarked_of_override hnames h, fun names hnames =>
    ⟨fun _ _ h => Call.count_lt_of_ofMarkup hnames h, fun t given hgiven => ?_⟩⟩
  obtain ⟨history, hruns⟩ := runs_expandWith hnames t given
  obtain ⟨hnodup, hsub⟩ := firstFindings_selected hgiven
  have hmarks := hruns.marks_le hnames hnodup hsub
  have hpasses := hruns.passes
  have hle := hruns.passes_le
  have hstart : ({ text := t } : Expanded).succeeded.length = 0 := rfl
  simp only [hstart, Nat.zero_add, Nat.add_zero] at hmarks hpasses hle
  exact ⟨history, hruns, hpasses, hmarks, hle⟩

/-- A region with another one in its code and a region at fault, given from right to left. -/
theorem expansion_spends_marks_nested :
    let t : Text := "(<a b=\x7b(<c/>)\x7d/>) (<d>)"
    let regions := (Region.extract t).reverse
    let r := expandWith {} t (some regions)
    ({} : Names).Unmarked ∧ regions.Nodup ∧ regions ⊆ Region.extract t ∧ regions.length = 2 ∧
      r.succeeded.length + r.text.count '<' ≤ 3 ∧ r.passes ≤ r.succeeded.length + 1 := by
  intro t regions r
  have hnodup : regions.Nodup := List.nodup_reverse.mpr (Region.nodup_extract t)
  have hsub : regions ⊆ Region.extract t := fun m hm => List.mem_reverse.mp hm
  obtain ⟨history, -, -, hmarks, hpasses⟩ :=
    (expansion_spends_marks.2.2 {} Names.unmarked_default).2 t (some regions)
      (fun given h => Option.some.inj h ▸ ⟨hnodup, hsub⟩)
  exact ⟨Names.unmarked_default, hnodup, hsub, by decide +kernel, hmarks, hpasses⟩

end InlineMarkup
