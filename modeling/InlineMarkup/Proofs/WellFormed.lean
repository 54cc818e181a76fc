import InlineMarkup.Proofs.Grammar
import InlineMarkup.Proofs.Lexemes

/-!
# Well-formed elements

An element is well-formed when its parts are what tokens can say: names are names, props have
names of their own, literal values are quoted literals, code is the inside of a block without
blanks at its ends, and text is running text; code among the children is not empty.

Whatever markup is read, the element that comes out is well-formed (`wellFormed_of_ofMarkup`).
Nothing here depends on the order of tokens.  The reading gives tokens of their kinds' forms
(`Lexer.run_formed`), and the grammar puts nothing into an element but what such tokens say: the
two steps are one induction on the derivation (`SpellsContent.wellFormed`).
-/

namespace InlineMarkup

/-! ## 1. Props -/

namespace Props

/-- Props with names of their own, whose values are of a form. -/
structure IsFormed (form : Text → Prop) (props : Props) : Prop where
  nodup : (props.map Prod.fst).Nodup
  names : ∀ p ∈ props, IsName p.1
  values : ∀ p ∈ props, form p.2

theorem isFormed_nil (form : Text → Prop) : IsFormed form [] :=
  ⟨List.nodup_nil, fun _ h => absurd h List.not_mem_nil, fun _ h => absurd h List.not_mem_nil⟩

/-- A prop that is set is one that was there, or the new one. -/
theorem mem_set {name value : Text} : ∀ {props : Props} {p : Text × Text},
    p ∈ set name value props → p ∈ props ∨ p = (name, value)
  | [], p, h => Or.inr (List.mem_singleton.mp h)
  | (n, v) :: props, p, h => by
    rw [set] at h
    split at h
    · rename_i hn
      rcases List.mem_cons.mp h with h | h
      · exact Or.inr (by rw [h, hn])
      · exact Or.inl (List.mem_cons_of_mem _ h)
    · rcases List.mem_cons.mp h with h | h
      · exact Or.inl (by rw [h]; exact List.mem_cons_self)
      · exact (mem_set h).imp_left (List.mem_cons_of_mem _)

/-- Setting a prop keeps the names, in their order, and adds at most the new one at the end. -/
theorem names_set (name value : Text) : ∀ props : Props, (set name value props).map Prod.fst =
    if name ∈ props.map Prod.fst then props.map Prod.fst else props.map Prod.fst ++ [name]
  | [] => by simp [set]
  | (n, v) :: props => by
    rw [set]
    by_cases hn : n = name
    · rw [if_pos hn, if_pos (by simp [hn])]
      rfl
    · rw [if_neg hn, List.map_cons, names_set name value props, List.map_cons]
      have hiff : name ∈ n :: props.map Prod.fst ↔ name ∈ props.map Prod.fst := by
        rw [List.mem_cons]
        exact or_iff_right fun h => hn h.symm
      by_cases hmem : name ∈ props.map Prod.fst
      · rw [if_pos hmem, if_pos (hiff.mpr hmem)]
      · rw [if_neg hmem, if_neg (fun h => hmem (hiff.mp h))]
        rfl

theorem IsFormed.set {form : Text → Prop} {props : Props} {name value : Text}
    (h : IsFormed form props) (hname : IsName name) (hvalue : form value) :
    IsFormed form (Props.set name value props) := by
  constructor
  · rw [names_set]
    split
    · exact h.nodup
    · rename_i hmem
      exact List.Nodup.append h.nodup (List.nodup_singleton name)
        (List.disjoint_singleton.mpr hmem)
  · intro p hp
    rcases mem_set hp with hp | rfl
    · exact h.names p hp
    · exact hname
  · intro p hp
    rcases mem_set hp with hp | rfl
    · exact h.values p hp
    · exact hvalue

end Props

/-! ## 2. Elements -/

mutual

/-- A well-formed child. -/
def Node.WellFormed : Node → Prop
  | .text t => IsRunningText t
  | .code c => IsCode c ∧ c ≠ []
  | .element tag strings codes children =>
    IsName tag ∧ Props.IsFormed IsString strings ∧ Props.IsFormed IsCode codes ∧
      Node.AllWellFormed children
  | .unsupported _ => False

/-- Well-formed children. -/
def Node.AllWellFormed : List Node → Prop
  | [] => True
  | node :: nodes => node.WellFormed ∧ Node.AllWellFormed nodes

end

/-- A well-formed element. -/
def Element.WellFormed (e : Element) : Prop := e.toNode.WellFormed

namespace Element

/-- The element that markup says, or the error that stops the reading of its tokens or of the
element. -/
def ofMarkup (markup : Text) : Except MarkupError Element := Token.ofText markup >>= ofTokens

theorem ofText_eq_ok_iff {markup : Text} {ts : List Token} : Token.ofText markup = .ok ts ↔
    (Lexed.ofText markup).failure = none ∧ (Lexed.ofText markup).tokens = ts := by
  unfold Token.ofText
  dsimp only
  cases hf : (Lexed.ofText markup).failure with
  | some err =>
    constructor
    · intro h; cases h
    · rintro ⟨h, -⟩; cases h
  | none =>
    constructor
    · intro h; exact ⟨rfl, Except.ok.inj h⟩
    · rintro ⟨-, rfl⟩; rfl

/-- The tokens behind an element that was read. -/
theorem ofMarkup_eq_ok_iff {markup : Text} {e : Element} : ofMarkup markup = .ok e ↔
    (Lexed.ofText markup).failure = none ∧ Spells (Lexed.ofText markup).tokens e := by
  rw [ofMarkup, bind_eq_ok]
  constructor
  · rintro ⟨ts, hts, he⟩
    obtain ⟨hf, rfl⟩ := ofText_eq_ok_iff.mp hts
    exact ⟨hf, ofTokens_eq_ok_iff.mp he⟩
  · rintro ⟨hf, hs⟩
    exact ⟨_, ofText_eq_ok_iff.mpr ⟨hf, rfl⟩, ofTokens_eq_ok_iff.mpr hs⟩

/-! ## 3. What the grammar puts into an element -/

/-- The braces of a block and the blanks inside of them come off. -/
theorem unbraced_block (u : Text) : Text.unbraced ('{' :: (u ++ ['}'])) = Text.trim u := by
  have hs : Text.Solid ('{' :: (u ++ ['}'])) := by
    constructor
    · intro c hc
      rw [List.head?_cons, Option.mem_some] at hc
      rw [← hc]
      decide
    · intro c hc
      rw [← List.cons_append, List.getLast?_append] at hc
      rw [← Option.mem_some.mp hc]
      decide
  have hb : Text.isBraced ('{' :: (u ++ ['}'])) = true := by
    rw [Text.isBraced, Bool.and_eq_true]
    exact ⟨rfl, List.isSuffixOf_iff_suffix.mpr ⟨'{' :: u, rfl⟩⟩
  rw [Text.unbraced, Text.trim_of_solid hs, if_pos hb, List.drop_succ_cons, List.drop_zero,
    List.dropLast_concat]

/-- What a code token holds is code. -/
theorem isCode_unbraced {t : Text} (h : Token.Kind.code.Admits t) : IsCode (Text.unbraced t) := by
  obtain ⟨u, rfl, hu⟩ := h
  rw [unbraced_block]
  exact isCode_trim hu

/-- Attributes of formed tokens are formed props. -/
theorem attributes_formed (strings codes : Props) (ts : List Token)
    (ht : ∀ t ∈ ts, t.IsFormed) (hs : strings.IsFormed IsString) (hc : codes.IsFormed IsCode) :
    (attributes strings codes ts).1.IsFormed IsString ∧
      (attributes strings codes ts).2.1.IsFormed IsCode := by
  induction strings, codes, ts using attributes.induct with
  | case1 strings codes => exact ⟨hs, hc⟩
  | case2 strings codes l p rest => exact ⟨hs, hc⟩
  | case3 strings codes l p rest => exact ⟨hs, hc⟩
  | case4 strings codes name p value p' rest ih =>
    rw [attributes]
    have hname : IsName name := ht ⟨.propName, name, p⟩ (by simp)
    have hvalue : IsString value := ht ⟨.string, value, p'⟩ (by simp)
    exact ih (fun t h => ht t (by simp [h])) (hs.set hname hvalue) hc
  | case5 strings codes name p value p' rest ih =>
    rw [attributes]
    have hname : IsName name := ht ⟨.propName, name, p⟩ (by simp)
    have hvalue : Token.Kind.code.Admits value := ht ⟨.code, value, p'⟩ (by simp)
    exact ih (fun t h => ht t (by simp [h])) hs (hc.set hname (isCode_unbraced hvalue))
  | case6 strings codes name p mark p' value p'' rest ih =>
    rw [attributes]
    have hname : IsName name := ht ⟨.propName, name, p⟩ (by simp)
    have hvalue : IsString value := ht ⟨.string, value, p''⟩ (by simp)
    exact ih (fun t h => ht t (by simp [h])) (hs.set hname hvalue) hc
  | case7 strings codes name p mark p' value p'' rest ih =>
    rw [attributes]
    have hname : IsName name := ht ⟨.propName, name, p⟩ (by simp)
    have hvalue : Token.Kind.code.Admits value := ht ⟨.code, value, p''⟩ (by simp)
    exact ih (fun t h => ht t (by simp [h])) hs (hc.set hname (isCode_unbraced hvalue))
  | case8 strings codes t rest h₁ h₂ h₃ h₄ h₅ h₆ ih =>
    rw [attributes.eq_8 strings codes t rest h₁ h₂ h₃ h₄ h₅ h₆]
    exact ih (fun t h => ht t (List.mem_cons_of_mem _ h)) hs hc

/-- What a start tag says is formed. -/
theorem SpellsStart.formed {head : List Token} {s : StartTag} (h : SpellsStart head s)
    (ht : ∀ t ∈ head, t.IsFormed) :
    IsName s.tag ∧ s.strings.IsFormed IsString ∧ s.codes.IsFormed IsCode := by
  cases h with
  | @intro opening name stop inside isEmpty _ hname _ _ =>
    have hn : name.IsFormed := ht name (by simp)
    rw [Token.IsFormed, hname] at hn
    have hin : ∀ t ∈ inside, t.IsFormed := fun t h => ht t (by simp [h])
    exact ⟨hn, attributes_formed [] [] inside hin (Props.isFormed_nil _) (Props.isFormed_nil _)⟩

/-- **Children that formed tokens spell are well-formed.** -/
theorem SpellsContent.wellFormed {ts : List Token} {nodes : List Node} (h : SpellsContent ts nodes)
    (ht : ∀ t ∈ ts, t.IsFormed) : Node.AllWellFormed nodes := by
  induction h with
  | nil => trivial
  | @text t ts nodes hkind _ ih =>
    have hform : t.IsFormed := ht t List.mem_cons_self
    rw [Token.IsFormed, hkind] at hform
    exact ⟨hform, ih fun t h => ht t (List.mem_cons_of_mem _ h)⟩
  | @code t ts nodes hkind hne _ ih =>
    have hform : t.IsFormed := ht t List.mem_cons_self
    rw [Token.IsFormed, hkind] at hform
    exact ⟨⟨isCode_unbraced hform, hne⟩, ih fun t h => ht t (List.mem_cons_of_mem _ h)⟩
  | emptyCode _ _ _ ih => exact ih fun t h => ht t (List.mem_cons_of_mem _ h)
  | passed _ _ ih => exact ih fun t h => ht t (List.mem_cons_of_mem _ h)
  | @emptyElement head ts s nodes hhead _ _ ih =>
    obtain ⟨htag, hstrings, hcodes⟩ := hhead.formed fun t h => ht t (List.mem_append_left _ h)
    exact ⟨⟨htag, hstrings, hcodes, trivial⟩, ih fun t h => ht t (List.mem_append_right _ h)⟩
  | @element head inner tail ts s children nodes hhead _ _ _ _ ihin ih =>
    obtain ⟨htag, hstrings, hcodes⟩ := hhead.formed fun t h => ht t (by simp [h])
    exact ⟨⟨htag, hstrings, hcodes, ihin fun t h => ht t (by simp [h])⟩,
      ih fun t h => ht t (by simp [h])⟩

theorem Spells.wellFormed {ts : List Token} {e : Element} (h : Spells ts e)
    (ht : ∀ t ∈ ts, t.IsFormed) : e.WellFormed := by
  cases h with
  | empty hhead _ =>
    obtain ⟨htag, hstrings, hcodes⟩ := hhead.formed ht
    exact ⟨htag, hstrings, hcodes, trivial⟩
  | full hhead _ hinner _ =>
    obtain ⟨htag, hstrings, hcodes⟩ := hhead.formed fun t h => ht t (by simp [h])
    exact ⟨htag, hstrings, hcodes, hinner.wellFormed fun t h => ht t (by simp [h])⟩

/-- **Every element that markup says is well-formed.** -/
theorem wellFormed_of_ofMarkup {markup : Text} {e : Element} (h : ofMarkup markup = .ok e) :
    e.WellFormed :=
  (ofMarkup_eq_ok_iff.mp h).2.wellFormed (Lexer.run_formed 0 {} markup)

end Element

end InlineMarkup
