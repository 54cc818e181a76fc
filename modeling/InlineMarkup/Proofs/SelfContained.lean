import InlineMarkup.Proofs.Fixpoint
import InlineMarkup.Proofs.Openings
import InlineMarkup.Proofs.Quotes

/-!
# Expanding markup in parentheses

A text that is nothing but markup in parentheses is, after the first pass, the call of the markup.
The passes that follow go by the text alone (`Runs.congr`): that a part of it was written as a
literal is nothing they could know of.  So the text is expanded as its call is, one pass later
(`expand_of_more`).

It stays at the call exactly if the call has no region, and that is so if no literal and no code of
the markup opens one.  A literal that does is expanded like any other text
(`literal_expanded_again`).
-/

namespace InlineMarkup

open Region

/-! ## 1. A text that is one region -/

/-- A region whose markup is all that stands in the parentheses is the whole text. -/
theorem Region.IsRegionOf.eq_parenthesized {c : Text} {m : Region} {p q : Nat}
    (h : IsRegionOf ('(' :: (c ++ [')'])) m p q) (hc : m.content = c) : m = parenthesized c := by
  -- the expression has room for the markup and two parentheses, and for nothing else
  obtain ⟨w₁, w₂, -, -, hlayout⟩ := h.layout
  have hsize : m.expression.length = w₁.length + c.length + w₂.length + 2 := by
    rw [hlayout, hc]
    simp only [List.length_cons, List.length_append, List.length_nil]
    omega
  have hend : q ≤ c.length + 1 := by simpa using (List.getElem?_eq_some_iff.mp h.closer).1
  rw [h.expression, List.length_take, List.length_drop, List.length_cons, List.length_append,
    List.length_singleton] at hsize
  obtain rfl : p = 0 := by omega
  obtain rfl : q = c.length + 1 := by omega
  have hexpression : m.expression = '(' :: (c ++ [')']) := by
    rw [h.expression, List.drop_zero, List.take_of_length_le (by simp)]
  calc m = ⟨m.expression, m.content, m.start, m.stop⟩ := rfl
    _ = ⟨'(' :: (c ++ [')']), c, (0 : Nat), (c.length + 1 : Nat)⟩ := by
        rw [hexpression, hc, h.start, h.stop]
    _ = parenthesized c := rfl

namespace Expansion

variable {names : Names} {found : List Finding} {r r' : Expanded} {more : Bool}

theorem weave_parenthesized (c call : Text) :
    weave 0 ('(' :: (c ++ [')'])) [(parenthesized c, call)] = call := by
  have hbefore : ('(' :: (c ++ [')'])).take ((parenthesized c).start - 0).toNat = [] := rfl
  have hafter : ('(' :: (c ++ [')'])).drop ((parenthesized c).stop + 1 - 0).toNat = [] := by
    refine List.drop_eq_nil_of_le ?_
    simp only [parenthesized, List.length_cons, List.length_append, List.length_nil]
    omega
  rw [weave, weave, hbefore, hafter, List.nil_append, List.append_nil]

/-- **The first pass over markup in parentheses leaves its call.** -/
theorem pass_parenthesized {c call : Text}
    (hextract : extract ('(' :: (c ++ [')'])) = [parenthesized c])
    (hcall : Call.ofMarkup names c = .ok call) :
    ∃ r, pass names (Finding.scan ('(' :: (c ++ [')']))) { text := '(' :: (c ++ [')']) } =
      (r, true) ∧ r.text = call := by
  rcases hpass : pass names (Finding.scan ('(' :: (c ++ [')']))) { text := '(' :: (c ++ [')']) }
    with ⟨r, more⟩
  have hne : extract ('(' :: (c ++ [')'])) ≠ [] := by
    rw [hextract]
    exact List.cons_ne_nil _ _
  have hcalls : replacements (attempts names (extract ('(' :: (c ++ [')'])))) =
      [(parenthesized c, call)] := by
    rw [attempts, inOrder_extract, hextract]
    exact replacements_ok hcall []
  obtain ⟨hpassed, hmore⟩ := passed_of_pass hne hpass
  have hreason : more = true := hmore.mpr (by
    change replacements (attempts names (extract _)) ≠ []
    rw [hcalls]
    exact List.cons_ne_nil _ _)
  refine ⟨r, by rw [hreason], ?_⟩
  have hplaced := placed_extract ('(' :: (c ++ [')']))
  rw [hextract] at hplaced
  have htext : r.text = replaceAll ('(' :: (c ++ [')'])) [(parenthesized c, call)] := by
    rw [← hcalls]
    exact hpassed.text
  rw [htext, replaceAll_of_placed hplaced, weave_parenthesized]

/-! ## 2. Passes go by the text -/

/-- What a pass makes of a text does not depend on what was done before. -/
theorem pass_congr (h : pass names found r = (r', more)) {s : Expanded} (hs : s.text = r.text) :
    ∃ s', pass names found s = (s', more) ∧ s'.text = r'.text := by
  by_cases hnil : found.filterMap Finding.region? = []
  · rw [pass_of_nil hnil] at h ⊢
    obtain ⟨rfl, rfl⟩ := Prod.mk.inj h
    exact ⟨_, rfl, hs⟩
  · rcases hpass : pass names found s with ⟨s', more'⟩
    obtain ⟨hpassed, hmore⟩ := passed_of_pass hnil h
    obtain ⟨hpassed', hmore'⟩ := passed_of_pass hnil hpass
    have heq : more' = more := Bool.eq_iff_iff.mpr (hmore'.trans hmore.symm)
    exact ⟨s', by rw [heq], by rw [hpassed'.text, hpassed.text, hs]⟩

/-- **A run goes the same way from every state with the same text.** -/
theorem Runs.congr {history : List (List Region)} (h : Runs names found r history r') :
    ∀ {s : Expanded}, s.text = r.text →
      ∃ s', Runs names found s history s' ∧ s'.text = r'.text := by
  induction h with
  | idle hnil hpass =>
    intro s hs
    obtain ⟨s', hpass', htext⟩ := pass_congr hpass hs
    exact ⟨s', .idle hnil hpass', htext⟩
  | last hne hpass =>
    intro s hs
    obtain ⟨s', hpass', htext⟩ := pass_congr hpass hs
    exact ⟨s', .last hne hpass', htext⟩
  | more hpass _ ih =>
    intro s hs
    obtain ⟨s₁, hpass', htext₁⟩ := pass_congr hpass hs
    obtain ⟨s', hruns, htext⟩ := ih htext₁
    rw [← htext₁] at hruns
    exact ⟨s', .more hpass' hruns, htext⟩

/-- **A first pass that expands something leaves the rest to the expansion of its text.** -/
theorem expand_of_more (hnames : names.Unmarked) {t : Text}
    (h : pass names (Finding.scan t) { text := t } = (r, true)) :
    (expand names t).text = (expand names r.text).text ∧
      (expand names t).passes = (expand names r.text).passes + 1 := by
  obtain ⟨history, hruns⟩ := runs_expand hnames r.text
  -- the state after the first pass has the text of a fresh start, though not its history
  obtain ⟨r', hruns', htext⟩ := hruns.congr (s := r) rfl
  have hfirst : r.passes = 1 := (passed_of_more h).1.passes
  have hpasses : (expand names r.text).passes = 0 + history.length := hruns.passes
  rw [expand, complete_of_runs (.more h hruns'), hruns'.passes, hfirst, htext, hpasses]
  exact ⟨rfl, by omega⟩

/-- A run makes no pass exactly if it starts with no region. -/
theorem Runs.history_eq_nil_iff {history : List (List Region)}
    (h : Runs names found r history r') :
    history = [] ↔ found.filterMap Finding.region? = [] := by
  cases h with
  | idle hnil _ => exact iff_of_true rfl hnil
  | last hne _ => exact iff_of_false (List.cons_ne_nil _ _) hne
  | more hpass _ =>
    refine iff_of_false (List.cons_ne_nil _ _) fun hnil => ?_
    rw [pass_of_nil hnil] at hpass
    cases hpass

theorem passes_expand_eq_zero_iff (hnames : names.Unmarked) {t : Text} :
    (expand names t).passes = 0 ↔ extract t = [] := by
  obtain ⟨history, hruns⟩ := runs_expand hnames t
  have hpasses : (expand names t).passes = 0 + history.length := hruns.passes
  rw [hpasses, Nat.zero_add, List.length_eq_zero_iff]
  exact hruns.history_eq_nil_iff

theorem text_expand_of_no_regions {t : Text} (h : extract t = []) : (expand names t).text = t := by
  have hsettled : Settled names t := by
    rw [Settled, h]
    exact fun m hm => absurd hm List.not_mem_nil
  exact (expand_of_settled hsettled).1

end Expansion

/-! ## 3. One pass and no more -/

/-- A text that is one region, whose markup has a call, is expanded as the call is. -/
theorem expand_of_single {names : Names} (hnames : names.Unmarked) {c call : Text} {m : Region}
    (hextract : extract ('(' :: (c ++ [')'])) = [m]) (hcontent : m.content = c)
    (hcall : Call.ofMarkup names c = .ok call) :
    (expand names ('(' :: (c ++ [')']))).text = (expand names call).text ∧
      (expand names ('(' :: (c ++ [')']))).passes = (expand names call).passes + 1 := by
  have hm : m ∈ extract ('(' :: (c ++ [')'])) := by
    rw [hextract]
    exact List.mem_singleton_self m
  obtain ⟨p, q, hregion⟩ := isRegionOf_of_mem_extract hm
  rw [hregion.eq_parenthesized hcontent] at hextract
  obtain ⟨r, hpass, rfl⟩ := Expansion.pass_parenthesized hextract hcall
  exact Expansion.expand_of_more hnames hpass

/-- **Markup in parentheses is expanded to its call**, if no literal and no code of it opens a
region.

The text is a single region, and the markup is all that stands in its parentheses.  If there is no
opening in a literal or in code, a single pass is made and the call comes out.  This is so exactly
if the call has no region; in any case the text is expanded as the call is, with one more pass. -/
theorem expand_parenthesized {names : Names} (hnames : names.Unmarked) {c call : Text} {m : Region}
    (hextract : extract ('(' :: (c ++ [')'])) = [m]) (hcontent : m.content = c)
    (hcall : Call.ofMarkup names c = .ok call) :
    let r := expand names ('(' :: (c ++ [')']))
    (∃ tokens, Token.ofText c = .ok tokens ∧
      ((∀ t ∈ tokens, t.kind.isVerbatim = true → openings t.lexeme = []) →
        r.passes = 1 ∧ r.text = call)) ∧
      (r.passes = 1 ∧ r.text = call ↔ extract call = []) ∧
      r.text = (expand names call).text ∧ r.passes = (expand names call).passes + 1 := by
  intro r
  obtain ⟨htext, hpasses⟩ := expand_of_single hnames hextract hcontent hcall
  have hiff : r.passes = 1 ∧ r.text = call ↔ extract call = [] := by
    rw [htext, hpasses, Nat.add_eq_right, Expansion.passes_expand_eq_zero_iff hnames]
    exact and_iff_left_of_imp Expansion.text_expand_of_no_regions
  refine ⟨⟨_, Call.ofText_of_ofMarkup hcall, fun hnone => ?_⟩, hiff, htext, hpasses⟩
  exact hiff.mpr (extract_of_openings_eq_nil (openings_call_eq_nil hnames hcall hnone))

/-- A parenthesis in a literal that nothing balances, and code that compares with a parenthesis. -/
theorem expand_parenthesized_plain :
    let c : Text := "<a b=\"(x\">\x7by < (z)\x7d</a>"
    let call : Text :=
      "Document.CreateElement(\"a\", new HtmlAProps \x7b B = \"(x\" \x7d,\n    y < (z)\n)"
    let r := expand {} ('(' :: (c ++ [')']))
    ({} : Names).Unmarked ∧ extract ('(' :: (c ++ [')'])) = [parenthesized c] ∧
      Call.ofMarkup {} c = .ok call ∧
      (∀ t ∈ (Lexed.ofText c).tokens, t.kind.isVerbatim = true → openings t.lexeme = []) ∧
      r.passes = 1 ∧ r.text = call := by
  intro c call r
  have hextract : extract ('(' :: (c ++ [')'])) = [parenthesized c] := by decide +kernel
  have hcall : Call.ofMarkup {} c = .ok call := by decide +kernel
  have hnone : ∀ t ∈ (Lexed.ofText c).tokens, t.kind.isVerbatim = true →
      openings t.lexeme = [] := by decide +kernel
  obtain ⟨tokens, htokens, hone⟩ :=
    (expand_parenthesized Names.unmarked_default hextract rfl hcall).1
  obtain ⟨-, rfl⟩ := Element.ofText_eq_ok_iff.mp htokens
  exact ⟨Names.unmarked_default, hextract, hcall, hnone, hone hnone⟩

/-- **A literal is not safe from a later pass**: a region in it is expanded, though the markup has
no code at all. -/
theorem literal_expanded_again :
    let c : Text := "<a x=\"(<b/>)\"/>"
    let call : Text := "Document.CreateElement(\"a\", new HtmlAProps \x7b X = \"(<b/>)\" \x7d)"
    let r := expand {} ('(' :: (c ++ [')']))
    ({} : Names).Unmarked ∧ extract ('(' :: (c ++ [')'])) = [parenthesized c] ∧
      Call.ofMarkup {} c = .ok call ∧ (Lexed.ofText c).tokens.all (fun t => t.kind != .code) ∧
      r.passes ≠ 1 ∧ r.text ≠ call := by
  intro c call r
  have hextract : extract ('(' :: (c ++ [')'])) = [parenthesized c] := by decide +kernel
  have hcall : Call.ofMarkup {} c = .ok call := by decide +kernel
  have hsome : (extract call).any fun m => !m.fails {} := by decide +kernel
  -- the call has a region that is not at fault, and an expanded text has none of these
  obtain ⟨m, hm, hok⟩ := List.any_eq_true.mp hsome
  refine ⟨Names.unmarked_default, hextract, hcall, by decide +kernel, ?_, ?_⟩
  · intro hpasses
    have hlater : r.passes = (expand {} call).passes + 1 :=
      (expand_of_single Names.unmarked_default hextract rfl hcall).2
    have hzero : (expand {} call).passes = 0 := by omega
    rw [(Expansion.passes_expand_eq_zero_iff Names.unmarked_default).mp hzero] at hm
    exact absurd hm List.not_mem_nil
  · intro htext
    have hsettled := Expansion.settled_expand Names.unmarked_default ('(' :: (c ++ [')']))
    have hfails := hsettled m (by rwa [htext])
    rw [hfails] at hok
    cases hok

end InlineMarkup
