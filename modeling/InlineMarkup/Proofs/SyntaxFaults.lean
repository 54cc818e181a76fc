import InlineMarkup.Proofs.Grammar

/-!
# How the readers of elements fail

There are many ways in which tokens do not make up an element, and in all of them the readers fail
alike: with a fault about elements, at the place of one of the tokens (`failsAt_readWhole`).  Only
where no token is left to begin with is there no such place, and then the place is one that the
reader was given for this.

A reader that goes on after another fails where either of them does, on tokens that the first has
left; so what the readers leave is a part of what they were given (`mem_of_startTag`,
`mem_of_childNodes`).
-/

namespace InlineMarkup.Element

/-- If it fails, then with a fault about elements, and at a place for which `P` holds. -/
def FailsAt {α : Type} (P : Option Int → Prop) (x : Except Failure α) : Prop :=
  ∀ f, x = .error f → f.error.fault.stage = .element ∧ P f.error.position

variable {P : Option Int → Prop}

namespace FailsAt

variable {α β : Type}

theorem ok (a : α) : FailsAt P (.ok a) := fun f h => by cases h

theorem error {fault : MarkupFault} {position : Option Int} (h : fault.stage = .element)
    (hp : P position) (rest : List Token) :
    FailsAt (α := α) P (.error (.at fault position rest)) := by
  intro f hf
  cases hf
  exact ⟨h, hp⟩

theorem bind {x : Except Failure α} {g : α → Except Failure β} (hx : FailsAt P x)
    (hg : ∀ a, x = .ok a → FailsAt P (g a)) : FailsAt P (x >>= g) := by
  intro f hf
  cases x with
  | error f' =>
    cases hf
    exact hx f rfl
  | ok a => exact hg a rfl f hf

end FailsAt

/-! ## 1. Tags -/

theorem failsAt_startTag {last : Option Int} {ts : List Token} (hlast : ts = [] → P last)
    (hts : ∀ t ∈ ts, P (some t.position)) : FailsAt P (startTag last ts) := by
  cases ts with
  | nil => exact .error rfl (hlast rfl) _
  | cons start ts =>
    have hstart : P (some start.position) := hts start List.mem_cons_self
    rw [startTag.eq_def]
    dsimp only
    split
    · exact .error rfl hstart _
    · split
      · exact .error rfl hstart _
      · split
        · exact .error rfl hstart _
        · split
          · exact .ok _
          · exact .ok _
          · exact .error rfl hstart _

theorem failsAt_closingTag {position : Int} (hp : P (some position)) (tag : Text)
    (all ts : List Token) : FailsAt P (closingTag tag position all ts) := by
  unfold closingTag
  split
  · exact .error rfl hp _
  · split
    · exact .error rfl hp _
    · split
      · exact .error rfl hp _
      · split
        · exact .ok _
        · exact .error rfl hp _

/-- A start tag stands at one of the tokens, and leaves some of the others. -/
theorem mem_of_startTag {last : Option Int} {ts rest : List Token} {s : StartTag}
    (h : startTag last ts = .ok (s, rest)) :
    (∃ t ∈ ts, t.position = s.position) ∧ ∀ t ∈ rest, t ∈ ts := by
  obtain ⟨head, rfl, hhead⟩ := startTag_eq_ok_iff.mp h
  cases hhead with
  | @intro opening => exact ⟨⟨opening, by simp, rfl⟩, fun t ht => List.mem_append_right _ ht⟩

/-! ## 2. Children and elements -/

theorem mem_of_childNodes {rounds : Nat} {last : Option Int} {start : StartTag}
    {ts rest : List Token} {nodes : List Node}
    (h : childNodes rounds last start ts = .ok (nodes, rest)) : ∀ t ∈ rest, t ∈ ts := by
  obtain ⟨inner, tail, rfl, -, -⟩ := spellsContent_of_childNodes rounds start ts nodes rest h
  intro t ht
  simp [ht]

/-- **Children fail as their tags do, in every round**, and at the start tag if tokens run out. -/
theorem failsAt_childNodes (last : Option Int) (rounds : Nat) : ∀ (start : StartTag)
    (ts : List Token), P (some start.position) → (∀ t ∈ ts, P (some t.position)) →
    FailsAt P (childNodes rounds last start ts) := by
  induction rounds with
  | zero =>
    intro start ts hstart _
    rw [childNodes]
    exact .error rfl hstart _
  | succ rounds ih =>
    intro start ts hstart hts
    cases ts with
    | nil =>
      rw [childNodes]
      exact .error rfl hstart _
    | cons t ts =>
      have hrest : ∀ t ∈ ts, P (some t.position) := fun t ht => hts t (List.mem_cons_of_mem _ ht)
      rw [childNodes.eq_def]
      dsimp only
      split
      · exact .bind (failsAt_closingTag (hts t List.mem_cons_self) _ _ _) fun _ _ => .ok _
      · exact .bind (ih start ts hstart hrest) fun _ _ => .ok _
      · exact .bind (ih start ts hstart hrest) fun _ _ => .ok _
      · refine .bind (failsAt_startTag (fun h => by cases h) hts) ?_
        rintro ⟨inner, ts₁⟩ hread
        obtain ⟨⟨t', ht', hposition⟩, hmem⟩ := mem_of_startTag hread
        have hinner : P (some inner.position) := hposition ▸ hts t' ht'
        have hleft : ∀ t ∈ ts₁, P (some t.position) := fun t ht => hts t (hmem t ht)
        dsimp only
        split
        · refine .bind (.ok _) fun a ha => ?_
          cases ha
          exact .bind (ih start ts₁ hstart hleft) fun _ _ => .ok _
        · refine .bind (ih inner ts₁ hinner hleft) ?_
          rintro ⟨grandchildren, ts₂⟩ hchildren
          refine .bind (ih start ts₂ hstart fun t ht => ?_) fun _ _ => .ok _
          exact hleft t (mem_of_childNodes hchildren t ht)
      · exact ih start ts hstart hrest

theorem failsAt_read {last : Option Int} {ts : List Token} (hlast : ts = [] → P last)
    (hts : ∀ t ∈ ts, P (some t.position)) : FailsAt P (read last ts) := by
  rw [read]
  refine .bind (failsAt_startTag hlast hts) ?_
  rintro ⟨start, rest⟩ hread
  obtain ⟨⟨t, ht, hposition⟩, hmem⟩ := mem_of_startTag hread
  dsimp only
  split
  · exact .bind (.ok _) fun _ _ => .ok _
  · refine .bind (failsAt_childNodes _ _ _ _ (hposition ▸ hts t ht) fun t ht => ?_) fun _ _ => .ok _
    exact hts t (hmem t ht)

/-- **Elements fail at the place of a token**, and a list of no tokens at the place it is given. -/
theorem failsAt_readWhole {last : Option Int} {ts : List Token} (hlast : ts = [] → P last)
    (hts : ∀ t ∈ ts, P (some t.position)) : FailsAt P (readWhole last ts) := by
  rw [readWhole]
  refine .bind (failsAt_read hlast hts) ?_
  rintro ⟨root, rest⟩ hread
  obtain ⟨us, rfl, -⟩ := read_eq_ok_iff.mp hread
  dsimp only
  split
  · exact .ok _
  · exact .error rfl (hts _ (by simp)) _

end InlineMarkup.Element
