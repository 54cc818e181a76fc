import InlineMarkup.Proofs.Termination

/-!
# What expansion leaves behind

A text is settled when each of its regions is at fault.  Passes end in one of two ways, with no
region or with regions none of which was expanded, and in both the text is settled
(`Runs.settled`): the last pass has looked at the very text that comes out.  A region that a call
has just brought in is no exception, since after a call another pass follows.

Expanding a settled text is one pass at most, which keeps the text and reports every region
(`expand_of_settled`); so a second expansion has nothing left to do.
-/

namespace InlineMarkup

open Region

/-- Every region of the text is at fault. -/
def Settled (names : Names) (t : Text) : Prop := ∀ m ∈ extract t, m.fails names = true

namespace Expansion

variable {names : Names}

/-- **A run over the regions of a text ends at a settled text**, and its last pass has met the
regions that are left. -/
theorem Runs.settled {found : List Finding} {r r' : Expanded} {history : List (List Region)}
    (h : Runs names found r history r') (hfound : found = Finding.scan r.text) :
    Settled names r'.text ∧ (extract r'.text ≠ [] → extract r'.text ∈ history) := by
  induction h with
  | @idle found r r' hnil hpass =>
    have hextract : extract r'.text = [] := by
      rw [extract, text_of_pass hpass, ← hfound]
      exact hnil
    rw [Settled, hextract]
    exact ⟨fun m hm => absurd hm List.not_mem_nil, fun hne => absurd rfl hne⟩
  | @last found r r' hne hpass =>
    have hextract : extract r'.text = found.filterMap Finding.region? := by
      rw [extract, text_of_pass hpass, ← hfound]
    rw [Settled, hextract]
    exact ⟨fails_of_pass hpass, fun _ => List.mem_singleton.mpr rfl⟩
  | more _ _ ih =>
    obtain ⟨hsettled, hmem⟩ := ih rfl
    exact ⟨hsettled, fun hne => List.mem_cons_of_mem _ (hmem hne)⟩

theorem settled_expand (hnames : names.Unmarked) (t : Text) :
    Settled names (expand names t).text := by
  obtain ⟨history, hruns⟩ := runs_expand hnames t
  exact (hruns.settled rfl).1

/-- The expansion of a settled text is a single pass. -/
theorem pass_of_settled {t : Text} (h : Settled names t) :
    pass names (Finding.scan t) { text := t } = (expand names t, false) := by
  rcases hpass : pass names (Finding.scan t) { text := t } with ⟨r₁, more⟩
  cases more with
  | true => exact absurd (replacements_eq_nil_iff.mpr h) (passed_of_more hpass).2
  | false =>
    obtain ⟨history, hruns⟩ := exists_runs_of_pass hpass
    rw [expand, complete_of_runs hruns]

/-- Each region is reported as it stands in the text. -/
def ReportedAs (names : Names) (m : Region) (x : Expansion) : Prop :=
  ∃ e, Call.ofMarkup names m.content = .error e ∧
    x = { expression := m.expression, error := some e.message }

/-- **Expanding a settled text** keeps the text and reports its regions, one by one. -/
theorem expand_of_settled {t : Text} (h : Settled names t) :
    (expand names t).text = t ∧ (expand names t).succeeded = [] ∧
      (expand names t).passes = (if extract t = [] then 0 else 1) ∧
      List.Forall₂ (ReportedAs names) (extract t) (expand names t).expansions := by
  have hpass := pass_of_settled h
  refine ⟨text_of_pass hpass, ?_⟩
  by_cases hnil : extract t = []
  · rw [eq_of_pass_nil hnil hpass, hnil]
    exact ⟨rfl, rfl, .nil⟩
  · have hpassed : Passed names (extract t) { text := t } (expand names t) :=
      (passed_of_pass hnil hpass).1
    have hlength := hpassed.succeeded
    rw [replacements_eq_nil_iff.mpr h] at hlength
    obtain ⟨start, finish, hexp, hrep, hrecords, hexp', -⟩ := hpassed.records
    rw [attempts, inOrder_extract] at hrecords
    have hfails : ∀ a ∈ (extract t).map fun m => Attempt.mk m (Call.ofMarkup names m.content),
        ∃ e, a.outcome = .error e := by
      intro a ha
      obtain ⟨m, hm, rfl⟩ := List.mem_map.mp ha
      exact fails_iff.mp (h m hm)
    obtain ⟨added, hadded, hall⟩ := hrecords.expansions_of_fails hrep hfails
    have hreported := List.forall₂_map_left_iff.mp hall
    rw [if_neg hnil, hexp', hadded, hexp]
    exact ⟨List.length_eq_zero_iff.mp hlength, hpassed.passes, hreported⟩

end Expansion

theorem Expanded.failed_of_succeeded {r : Expanded} (h : r.succeeded = []) :
    r.failed = r.expansions := by
  rw [Expanded.failed, List.filter_eq_self]
  intro x hx
  simpa using List.filter_eq_nil_iff.mp h x hx

open Expansion in
/-- **Expansion reaches a fixpoint.**

No region of an expanded text can be expanded.  So expanding it again keeps the text, expands
nothing, makes no pass where there is no region and one pass otherwise, and reports exactly the
regions of the text, in their order. -/
theorem expand_expand (names : Names) (hnames : names.Unmarked) (t : Text) :
    (∀ m ∈ extract (expand names t).text, ∃ e, Call.ofMarkup names m.content = .error e) ∧
      (expand names (expand names t).text).text = (expand names t).text ∧
      (expand names (expand names t).text).succeeded = [] ∧
      (expand names (expand names t).text).passes =
        (if extract (expand names t).text = [] then 0 else 1) ∧
      List.Forall₂ (ReportedAs names) (extract (expand names t).text)
        (expand names (expand names t).text).failed := by
  have hsettled := settled_expand hnames t
  obtain ⟨htext, hsucceeded, hpasses, hreported⟩ := expand_of_settled hsettled
  rw [← Expanded.failed_of_succeeded hsucceeded] at hreported
  exact ⟨fun m hm => fails_iff.mp (hsettled m hm), htext, hsucceeded, hpasses, hreported⟩

/-- A region with another one in its code, and a region at fault beside it. -/
theorem expand_expand_nested :
    let out := (expand {} "(<a b=\x7b(<c/>)\x7d/>) (<d>)").text
    ({} : Names).Unmarked ∧ (expand {} out).text = out ∧ (expand {} out).succeeded = [] ∧
      (expand {} out).failed.length = (extract out).length := by
  intro out
  obtain ⟨-, htext, hsucceeded, -, hreported⟩ := expand_expand {} Names.unmarked_default
    "(<a b=\x7b(<c/>)\x7d/>) (<d>)"
  exact ⟨Names.unmarked_default, htext, hsucceeded, hreported.length_eq.symm⟩

end InlineMarkup
