import InlineMarkup.Proofs.Fixpoint

/-!
# How often a failure is reported

A region at fault stays where it is and is met again by every later pass, and a call may bring in
another region with the same expression.  A failure is reported when its expression has failed more
often in a pass than it has been reported before.  So in the end an expression has been reported as
often as it fails in the pass in which it fails most often (`Runs.count_reported`), however its
failures come and go between passes.

The regions of an expanded text are all at fault, and the last pass has met them.  They are
therefore among the failures reported, each as often as it occurs, and a run without a failure
leaves no region.
-/

namespace InlineMarkup

namespace Expansion

variable {names : Names}

/-- How often an expression fails in the pass of a run in which it fails most often. -/
def mostFailures (names : Names) (x : Text) (history : List (List Region)) : Nat :=
  (history.map (failures names x)).foldr max 0

theorem failures_le_mostFailures (x : Text) : ∀ {history : List (List Region)}
    {regions : List Region}, regions ∈ history →
    failures names x regions ≤ mostFailures names x history
  | first :: history, regions, h => by
    rw [mostFailures, List.map_cons, List.foldr_cons]
    rcases List.mem_cons.mp h with rfl | h
    · exact Nat.le_max_left _ _
    · exact Nat.le_trans (failures_le_mostFailures x h) (Nat.le_max_right _ _)

namespace Runs

variable {found : List Finding} {r r' : Expanded} {history : List (List Region)}

/-- The reports of a run are those of its failed expansions, the last one first. -/
theorem reported_eq (h : Runs names found r history r')
    (hr : r.reported = (r.failed.map Expansion.expression).reverse) :
    r'.reported = (r'.failed.map Expansion.expression).reverse := by
  induction h with
  | idle hnil hpass =>
    rw [eq_of_pass_nil hnil hpass]
    exact hr
  | last hne hpass => exact (passed_of_pass hne hpass).1.reported_eq hr
  | more hpass _ ih =>
    exact ih ((passed_of_more hpass).1.reported_eq hr)

/-- **A run reports an expression as often as it fails in one pass**, or as often as it had been
reported before. -/
theorem count_reported (h : Runs names found r history r') (x : Text) :
    r'.reported.count x = max (r.reported.count x) (mostFailures names x history) := by
  induction h with
  | idle hnil hpass =>
    rw [eq_of_pass_nil hnil hpass]
    exact (Nat.max_eq_left (Nat.zero_le _)).symm
  | last hne hpass =>
    rw [(passed_of_pass hne hpass).1.count_reported x, mostFailures, List.map_singleton,
      List.foldr_cons, List.foldr_nil, Nat.max_zero]
  | more hpass _ ih =>
    rw [ih, (passed_of_more hpass).1.count_reported x, mostFailures,
      mostFailures, List.map_cons, List.foldr_cons, Nat.max_assoc]

/-- A run from the start fails with an expression as often as one of its passes does. -/
theorem count_failed {t : Text} (h : Runs names found { text := t } history r') (x : Text) :
    (r'.failed.map Expansion.expression).count x = mostFailures names x history := by
  have hreported := h.reported_eq rfl
  have hcount := h.count_reported x
  rw [hreported, List.count_reverse] at hcount
  rw [hcount]
  exact Nat.max_eq_right (Nat.zero_le _)

end Runs

/-- In a settled text an expression fails as often as it occurs. -/
theorem failures_of_settled {t : Text} (h : Settled names t) (x : Text) :
    failures names x (Region.extract t) = ((Region.extract t).map Region.expression).count x := by
  rw [failures, List.count, List.countP_map]
  refine List.countP_congr fun m hm => ?_
  simp [h m hm]

/-- **No region is left unreported.** -/
theorem extract_subperm_failed (hnames : names.Unmarked) (t : Text) :
    ((Region.extract (expand names t).text).map Region.expression).Subperm
      ((expand names t).failed.map Expansion.expression) := by
  obtain ⟨history, hruns⟩ := runs_expand hnames t
  obtain ⟨hsettled, hmem⟩ := hruns.settled rfl
  rw [List.subperm_ext_iff]
  intro x hx
  have hne : Region.extract (expand names t).text ≠ [] := by
    intro hnil
    rw [hnil] at hx
    exact absurd hx List.not_mem_nil
  calc ((Region.extract (expand names t).text).map Region.expression).count x
      = failures names x (Region.extract (expand names t).text) :=
        (failures_of_settled hsettled x).symm
    _ ≤ mostFailures names x history := failures_le_mostFailures x (hmem hne)
    _ = ((expand names t).failed.map Expansion.expression).count x := (hruns.count_failed x).symm

end Expansion

open Expansion in
/-- **Every failure is reported, and none too often.**

Whatever regions are given for the first pass, expansion is a run of passes, and an expression is
reported as failed exactly as often as it fails in the pass in which it fails most often.  Where
no regions are given, the regions of the text that comes out are all reported, each as often as it
occurs; so a text without a reported failure has no region left. -/
theorem failed_eq_mostFailures (names : Names) (hnames : names.Unmarked) (t : Text) :
    (∀ given : Option (List Region),
      (∃ history, Runs names (firstFindings t given) { text := t } history
        (expandWith names t given)) ∧
      ∀ history, Runs names (firstFindings t given) { text := t } history
          (expandWith names t given) →
        history.length = (expandWith names t given).passes ∧
        ∀ x, ((expandWith names t given).failed.map Expansion.expression).count x =
          mostFailures names x history) ∧
    ((Region.extract (expand names t).text).map Region.expression).Subperm
      ((expand names t).failed.map Expansion.expression) ∧
    ((expand names t).failed = [] → Region.extract (expand names t).text = []) := by
  have hsubperm := extract_subperm_failed hnames t
  refine ⟨fun given => ⟨runs_expandWith hnames t given, fun history hruns => ?_⟩, hsubperm, ?_⟩
  · have hpasses := hruns.passes
    rw [Nat.zero_add] at hpasses
    exact ⟨hpasses.symm, hruns.count_failed⟩
  · intro hnone
    rw [hnone, List.map_nil, List.subperm_nil, List.map_eq_nil_iff] at hsubperm
    exact hsubperm

/-- Two regions at fault with the same expression are reported twice. -/
theorem failed_eq_mostFailures_twice :
    ({} : Names).Unmarked ∧
      2 ≤ ((expand {} "(<d>) (<d>)").failed.map Expansion.expression).count ("(<d>)" : Text) := by
  have hsettled : Settled {} "(<d>) (<d>)" := by
    unfold Settled
    decide +kernel
  have hsubperm := (failed_eq_mostFailures {} Names.unmarked_default "(<d>) (<d>)").2.1
  rw [(Expansion.expand_of_settled hsettled).1] at hsubperm
  have hcount : 2 =
      ((Region.extract "(<d>) (<d>)").map Region.expression).count ("(<d>)" : Text) := by
    decide +kernel
  exact ⟨Names.unmarked_default, hcount.le.trans (hsubperm.count_le _)⟩

end InlineMarkup
