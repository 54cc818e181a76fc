import InlineMarkup.Proofs.Placement

/-!
# What passes do

A pass is opened here once and for all.  Section 1 says what recording the outcomes of a pass does
to the lists that are kept over all passes; section 2 says what a pass does (`Passed`); section 3
says what passes are that come to an end (`Runs`).

`Runs` knows no bound on the number of passes: a pass that gives a reason for another is followed
by one over the regions of the new text, for as long as there is a reason.  It keeps the regions
of each pass, so that a run as a whole can be spoken of.  Whatever a single pass preserves is then
carried over a run by one induction.  Passes have an outcome exactly when there is a run
(`finish_eq_some_iff`).
-/

namespace InlineMarkup

/-- The markup of the region is at fault. -/
def Region.fails (names : Names) (r : Region) : Bool := !(Call.ofMarkup names r.content).isOk

theorem Region.fails_iff {names : Names} {r : Region} :
    r.fails names = true ↔ ∃ e, Call.ofMarkup names r.content = .error e := by
  unfold Region.fails
  cases Call.ofMarkup names r.content with
  | ok call => simp [Except.isOk, Except.toBool]
  | error e => simp [Except.isOk, Except.toBool]

namespace Expansion

/-! ## 1. The outcomes of a pass -/

/-- `Records failing r tried r'`: adding the outcomes `tried` of a pass to `r` gives `r'`, where
`failing` has failed earlier in the pass.  A failure is `new` or `known`, according to how often
its expression has been reported. -/
inductive Records : List Text → Expanded → List Attempt → Expanded → Prop
  | nil {failing : List Text} {r : Expanded} : Records failing r [] r
  | ok {failing : List Text} {r r' : Expanded} {a : Attempt} {rest : List Attempt} {call : Text} :
      a.outcome = .ok call →
      Records failing
        { r with
          log := r.log ++ strays a.region
          expansions := r.expansions ++
            [{ expression := a.region.expression, generated := some call }] } rest r' →
      Records failing r (a :: rest) r'
  | new {failing : List Text} {r r' : Expanded} {a : Attempt} {rest : List Attempt}
      {e : MarkupError} : a.outcome = .error e →
      r.reported.count a.region.expression ≤ failing.count a.region.expression →
      Records (a.region.expression :: failing)
        { r with
          expansions := r.expansions ++
            [{ expression := a.region.expression, error := some e.message }]
          reported := a.region.expression :: r.reported
          log := r.log ++ strays a.region ++ [.failed a.region.expression e.message] } rest r' →
      Records failing r (a :: rest) r'
  | known {failing : List Text} {r r' : Expanded} {a : Attempt} {rest : List Attempt}
      {e : MarkupError} : a.outcome = .error e →
      failing.count a.region.expression < r.reported.count a.region.expression →
      Records (a.region.expression :: failing) { r with log := r.log ++ strays a.region } rest r' →
      Records failing r (a :: rest) r'

theorem records_record : ∀ (failing : List Text) (r : Expanded) (tried : List Attempt),
    Records failing r tried (record failing r tried)
  | failing, r, [] => by
    rw [record]
    exact .nil
  | failing, r, a :: rest => by
    rw [record]
    dsimp only
    split
    · rename_i call h
      exact .ok h (records_record _ _ rest)
    · rename_i e h
      rw [List.count_cons_self]
      split
      · exact .new h (by omega) (records_record _ _ rest)
      · exact .known h (by omega) (records_record _ _ rest)

/-- The attempt is at a region with this expression, and fails. -/
def Attempt.failsWith (x : Text) (a : Attempt) : Bool :=
  a.region.expression == x && !a.outcome.isOk

theorem Attempt.failsWith_ok {a : Attempt} {call : Text} (h : a.outcome = .ok call) (x : Text) :
    a.failsWith x = false := by
  rw [Attempt.failsWith, h]
  exact Bool.and_false _

theorem Attempt.failsWith_error {a : Attempt} {e : MarkupError} (h : a.outcome = .error e)
    (x : Text) : a.failsWith x = (a.region.expression == x) := by
  rw [Attempt.failsWith, h]
  exact Bool.and_true _

theorem replacements_ok {a : Attempt} {call : Text} (h : a.outcome = .ok call)
    (rest : List Attempt) : replacements (a :: rest) = (a.region, call) :: replacements rest := by
  simp only [replacements, List.filterMap_cons, h]

theorem replacements_error {a : Attempt} {e : MarkupError} (h : a.outcome = .error e)
    (rest : List Attempt) : replacements (a :: rest) = replacements rest := by
  simp only [replacements, List.filterMap_cons, h]

namespace Records

variable {failing : List Text} {r r' : Expanded} {tried : List Attempt}

/-- Outcomes change neither the text nor the number of passes. -/
theorem frame (h : Records failing r tried r') : r'.text = r.text ∧ r'.passes = r.passes := by
  induction h with
  | nil => exact ⟨rfl, rfl⟩
  | ok _ _ ih => exact ih
  | new _ _ _ ih => exact ih
  | known _ _ _ ih => exact ih

/-- One expansion succeeds for each region that is replaced. -/
theorem succeeded (h : Records failing r tried r') :
    r'.succeeded.length = r.succeeded.length + (replacements tried).length := by
  induction h with
  | nil => rfl
  | @ok failing r r' a rest call hok _ ih =>
    let x : Expansion := { expression := a.region.expression, generated := some call }
    have hgrown : (r.expansions ++ [x]).filter Expansion.succeeded = r.succeeded ++ [x] :=
      List.filter_append _ _
    rw [ih, replacements_ok hok, Expanded.succeeded, hgrown]
    simp only [List.length_append, List.length_cons, List.length_nil]
    omega
  | new herr _ _ ih =>
    rw [ih, replacements_error herr]
    simp [Expanded.succeeded, Expansion.succeeded]
  | known herr _ _ ih =>
    rw [ih, replacements_error herr]
    rfl

/-- The reports are those of the failed expansions, the last one first. -/
theorem reported_eq (h : Records failing r tried r')
    (hr : r.reported = (r.failed.map Expansion.expression).reverse) :
    r'.reported = (r'.failed.map Expansion.expression).reverse := by
  induction h with
  | nil => exact hr
  | ok _ _ ih =>
    refine ih ?_
    simpa [Expanded.failed, Expansion.succeeded] using hr
  | new _ _ _ ih =>
    refine ih ?_
    simpa [Expanded.failed, Expansion.succeeded] using hr
  | known _ _ _ ih => exact ih hr

/-- **How often an expression is reported**: as often as before the pass, or as often as it fails
in the pass, whichever is more. -/
theorem count_reported (h : Records failing r tried r') (x : Text)
    (hle : failing.count x ≤ r.reported.count x) : r'.reported.count x =
      max (r.reported.count x) (failing.count x + tried.countP (Attempt.failsWith x)) := by
  induction h with
  | nil =>
    rw [List.countP_nil]
    omega
  | ok hok _ ih =>
    rw [ih hle, List.countP_cons, Attempt.failsWith_ok hok, if_neg Bool.false_ne_true,
      Nat.add_zero]
  | @new failing r r' a rest e herr hnew _ ih =>
    rw [List.countP_cons, Attempt.failsWith_error herr]
    by_cases hx : a.region.expression = x
    · subst hx
      rw [ih (by simpa using hle), List.count_cons_self, List.count_cons_self,
        if_pos (beq_self_eq_true _)]
      omega
    · have hne : ¬ (a.region.expression == x) = true := by simpa using hx
      rw [ih (by simpa [hx] using hle), List.count_cons_of_ne hx, List.count_cons_of_ne hx,
        if_neg hne, Nat.add_zero]
  | @known failing r r' a rest e herr hknown _ ih =>
    rw [List.countP_cons, Attempt.failsWith_error herr]
    by_cases hx : a.region.expression = x
    · subst hx
      rw [ih (by simpa using hknown), List.count_cons_self, if_pos (beq_self_eq_true _),
        Nat.add_assoc, Nat.add_comm 1]
    · have hne : ¬ (a.region.expression == x) = true := by simpa using hx
      rw [ih (by simpa [hx] using hle), List.count_cons_of_ne hx, if_neg hne, Nat.add_zero]

/-- Where nothing has been reported before and everything fails, each outcome is recorded. -/
theorem expansions_of_fails (h : Records failing r tried r')
    (hr : r.reported = failing) (hfails : ∀ a ∈ tried, ∃ e, a.outcome = .error e) :
    ∃ added, r'.expansions = r.expansions ++ added ∧
      List.Forall₂ (fun a x => ∃ e, a.outcome = .error e ∧
        x = { expression := a.region.expression, error := some e.message }) tried added := by
  induction h with
  | nil => exact ⟨[], (List.append_nil _).symm, .nil⟩
  | ok hok _ _ =>
    obtain ⟨e, he⟩ := hfails _ List.mem_cons_self
    rw [hok] at he
    cases he
  | @new failing r r' a rest e herr _ _ ih =>
    obtain ⟨added, hadded, hall⟩ := ih (by rw [hr])
      fun a ha => hfails a (List.mem_cons_of_mem _ ha)
    refine ⟨{ expression := a.region.expression, error := some e.message } :: added, ?_,
      .cons ⟨e, herr, rfl⟩ hall⟩
    rw [hadded, List.append_assoc]
    rfl
  | known _ hknown _ _ =>
    rw [hr] at hknown
    exact absurd hknown (Nat.lt_irrefl _)

end Records

/-! ## 2. One pass -/

/-- A pass over `regions` turns `r` into `r'`: the calls are put in their places and the outcomes
are recorded. -/
structure Passed (names : Names) (regions : List Region) (r r' : Expanded) : Prop where
  passes : r'.passes = r.passes + 1
  text : r'.text = replaceAll r.text (replacements (attempts names regions))
  records : ∃ start finish, start.expansions = r.expansions ∧ start.reported = r.reported ∧
    Records [] start (attempts names regions) finish ∧
    r'.expansions = finish.expansions ∧ r'.reported = finish.reported

theorem regions_given (regions : List Region) :
    (regions.map Finding.region).filterMap Finding.region? = regions := by
  rw [List.filterMap_map]
  exact List.filterMap_some

theorem replaceAll_nil (t : Text) : replaceAll t [] = t := rfl

variable {names : Names} {found : List Finding} {r r' : Expanded} {more : Bool}

/-- A pass that finds no region changes nothing but the log. -/
theorem pass_of_nil (h : found.filterMap Finding.region? = []) (r : Expanded) :
    pass names found r = ({ r with log := r.log ++ skipped found }, false) := by
  unfold pass
  simp only [h]

theorem eq_of_pass_nil (hnil : found.filterMap Finding.region? = [])
    (h : pass names found r = (r', more)) : r' = { r with log := r.log ++ skipped found } := by
  rw [pass_of_nil hnil] at h
  exact (Prod.mk.inj h).1.symm

/-- **What a pass over regions does**, and when it gives a reason for another. -/
theorem passed_of_pass (hne : found.filterMap Finding.region? ≠ [])
    (h : pass names found r = (r', more)) :
    Passed names (found.filterMap Finding.region?) r r' ∧
      (more = true ↔ replacements (attempts names (found.filterMap Finding.region?)) ≠ []) := by
  unfold pass at h
  dsimp only at h
  split at h
  · rename_i hnil
    exact absurd hnil hne
  · have hrecords := records_record []
      { r with passes := r.passes + 1, log := r.log ++ skipped found }
      (attempts names (found.filterMap Finding.region?))
    split at h
    · rename_i hcalls
      obtain ⟨rfl, rfl⟩ := Prod.mk.inj h
      refine ⟨⟨hrecords.frame.2, ?_, _, _, ?_, ?_, hrecords, rfl, rfl⟩, by simp [hcalls]⟩
      · rw [hcalls, replaceAll_nil]
        exact hrecords.frame.1
      · rfl
      · rfl
    · rename_i hcalls
      obtain ⟨rfl, rfl⟩ := Prod.mk.inj h
      refine ⟨⟨hrecords.frame.2, ?_, _, _, ?_, ?_, hrecords, rfl, rfl⟩,
        fun _ => hcalls, fun _ => rfl⟩
      · dsimp only
        rw [hrecords.frame.1]
      · rfl
      · rfl

/-- A pass that gives a reason for another has replaced a region. -/
theorem passed_of_more (h : pass names found r = (r', true)) :
    Passed names (found.filterMap Finding.region?) r r' ∧
      replacements (attempts names (found.filterMap Finding.region?)) ≠ [] := by
  have hne : found.filterMap Finding.region? ≠ [] := by
    intro hnil
    rw [pass_of_nil hnil] at h
    cases h
  obtain ⟨hpassed, hmore⟩ := passed_of_pass hne h
  exact ⟨hpassed, hmore.mp rfl⟩

/-- Nothing is replaced exactly when every region is at fault. -/
theorem replacements_eq_nil_iff {regions : List Region} :
    replacements (attempts names regions) = [] ↔ ∀ m ∈ regions, m.fails names = true := by
  have hmem : ∀ m, m ∈ inOrder regions ↔ m ∈ regions := fun m => (inOrder_perm regions).mem_iff
  rw [replacements, List.filterMap_eq_nil_iff, attempts]
  simp only [List.mem_map, forall_exists_index, and_imp, forall_apply_eq_imp_iff₂, hmem]
  refine forall₂_congr fun m _ => ?_
  rw [Region.fails_iff]
  cases Call.ofMarkup names m.content with
  | ok call => simp
  | error e => simp

/-- How often an expression fails in a pass over regions. -/
def failures (names : Names) (x : Text) (regions : List Region) : Nat :=
  regions.countP fun m => m.expression == x && m.fails names

namespace Passed

variable {regions : List Region}

theorem succeeded (h : Passed names regions r r') : r'.succeeded.length =
    r.succeeded.length + (replacements (attempts names regions)).length := by
  obtain ⟨start, finish, hstart, -, hrecords, hfinish, -⟩ := h.records
  have hlength := hrecords.succeeded
  rw [Expanded.succeeded, Expanded.succeeded, hstart, ← hfinish] at hlength
  exact hlength

theorem reported_eq (h : Passed names regions r r')
    (hr : r.reported = (r.failed.map Expansion.expression).reverse) :
    r'.reported = (r'.failed.map Expansion.expression).reverse := by
  obtain ⟨start, finish, hexp, hrep, hrecords, hexp', hrep'⟩ := h.records
  have heq := hrecords.reported_eq (by rw [hrep, hr, Expanded.failed, Expanded.failed, hexp])
  rw [hrep', heq, Expanded.failed, Expanded.failed, hexp']

theorem count_reported (h : Passed names regions r r') (x : Text) :
    r'.reported.count x = max (r.reported.count x) (failures names x regions) := by
  obtain ⟨start, finish, -, hrep, hrecords, -, hrep'⟩ := h.records
  have hcount := hrecords.count_reported x (Nat.zero_le _)
  have htried : (attempts names regions).countP (Attempt.failsWith x) =
      failures names x regions := by
    rw [attempts, List.countP_map]
    exact (inOrder_perm regions).countP_eq _
  rw [hrep', hcount, hrep, htried, List.count_nil, Nat.zero_add]

end Passed

/-! ## 3. Runs of passes -/

/-- `Runs names found r history r'`: passes that start at `r` with what is `found` come to an end
at `r'`.  `history` has the regions of each pass, from the first to the last. -/
inductive Runs (names : Names) :
    List Finding → Expanded → List (List Region) → Expanded → Prop
  /-- There is no region. -/
  | idle {found : List Finding} {r r' : Expanded} : found.filterMap Finding.region? = [] →
      pass names found r = (r', false) → Runs names found r [] r'
  /-- No region is expanded. -/
  | last {found : List Finding} {r r' : Expanded} : found.filterMap Finding.region? ≠ [] →
      pass names found r = (r', false) →
      Runs names found r [found.filterMap Finding.region?] r'
  /-- Regions are expanded, and the text that comes out is looked through again. -/
  | more {found : List Finding} {r r₁ r' : Expanded} {history : List (List Region)} :
      pass names found r = (r₁, true) → Runs names (Finding.scan r₁.text) r₁ history r' →
      Runs names found r (found.filterMap Finding.region? :: history) r'

/-- A pass that gives no reason for another leaves the text as it is. -/
theorem text_of_pass (h : pass names found r = (r', false)) : r'.text = r.text := by
  by_cases hnil : found.filterMap Finding.region? = []
  · rw [eq_of_pass_nil hnil h]
  · obtain ⟨hpassed, hmore⟩ := passed_of_pass hnil h
    have hcalls : replacements (attempts names (found.filterMap Finding.region?)) = [] := by
      by_contra hne
      cases hmore.mpr hne
    rw [hpassed.text, hcalls, replaceAll_nil]

/-- The regions of a text that a pass gives up on are all at fault. -/
theorem fails_of_pass (h : pass names found r = (r', false)) :
    ∀ m ∈ found.filterMap Finding.region?, m.fails names = true := by
  by_cases hnil : found.filterMap Finding.region? = []
  · rw [hnil]
    exact fun m hm => absurd hm List.not_mem_nil
  · rw [← replacements_eq_nil_iff]
    by_contra hne
    cases (passed_of_pass hnil h).2.mpr hne

theorem exists_runs_of_pass (h : pass names found r = (r', false)) :
    ∃ history, Runs names found r history r' := by
  by_cases hnil : found.filterMap Finding.region? = []
  · exact ⟨_, .idle hnil h⟩
  · exact ⟨_, .last hnil h⟩

/-- **Passes have an outcome exactly when a run leads to it.** -/
theorem finish_eq_some_iff : r.finish names found = some r' ↔
    ∃ history, Runs names found r history r' := by
  constructor
  · intro h
    refine Expanded.finish.partial_correctness names
      (fun found r r' => ∃ history, Runs names found r history r') ?_ found r r' h
    intro later ih found r r' h
    split at h
    · rename_i r₁ hpass
      obtain ⟨history, hruns⟩ := ih _ _ _ h
      exact ⟨_, .more hpass hruns⟩
    · rename_i r₁ hpass
      cases h
      exact exists_runs_of_pass hpass
  · rintro ⟨history, h⟩
    induction h with
    | idle _ hpass => rw [Expanded.finish, hpass]
    | last _ hpass => rw [Expanded.finish, hpass]
    | more hpass _ ih =>
      rw [Expanded.finish, hpass]
      exact ih

/-- What a run over a text ends at is the outcome. -/
theorem complete_of_runs {t : Text} {history : List (List Region)}
    (h : Runs names found { text := t } history r') : complete names t found = r' := by
  rw [complete, finish_eq_some_iff.mpr ⟨history, h⟩]
  rfl

namespace Runs

variable {history : List (List Region)}

/-- Each pass over regions counts as one. -/
theorem passes (h : Runs names found r history r') : r'.passes = r.passes + history.length := by
  induction h with
  | idle hnil hpass =>
    rw [eq_of_pass_nil hnil hpass]
    rfl
  | last hne hpass => exact (passed_of_pass hne hpass).1.passes
  | more hpass _ ih =>
    rw [ih, (passed_of_more hpass).1.passes, List.length_cons]
    omega

/-- Every pass but the last expands a region. -/
theorem passes_le (h : Runs names found r history r') :
    r'.passes + r.succeeded.length ≤ r.passes + r'.succeeded.length + 1 := by
  induction h with
  | idle hnil hpass =>
    rw [eq_of_pass_nil hnil hpass]
    simp only [Expanded.succeeded]
    omega
  | last hne hpass =>
    have hpassed := (passed_of_pass hne hpass).1
    have hpasses := hpassed.passes
    have hsucceeded := hpassed.succeeded
    omega
  | more hpass _ ih =>
    obtain ⟨hpassed, hcalls⟩ := passed_of_more hpass
    have hpasses := hpassed.passes
    have hsucceeded := hpassed.succeeded
    have hpos := List.length_pos_iff.mpr hcalls
    omega

end Runs

end Expansion

end InlineMarkup
