import InlineMarkup.Proofs.CursorSteps
import InlineMarkup.Proofs.SyntaxFaults
import InlineMarkup.Proofs.WellFormed

/-!
# What the readers of elements accept

The grammar of elements, said once more without any reader.  The attributes of a tag are found at
every place of the tag that has a prop name and, perhaps after `=`, a value (`stringProps`,
`codeProps`); attributes cannot overlap, so no order of reading comes into it.  Props have the names
of these in the order of their first appearance, each with the value given last (`Props.collected`).
The content of an element is cut into parts, each of which is a token or again an element
(`Derives`).

From a place in a list of tokens a cursor reads an element exactly if one is derived by a stretch of
tokens from there on, and it is then left at the end of the stretch, of which there is only one.
Otherwise it fails with an error about elements, and not for want of a token
(`cursor_accepts_grammar`).
-/

namespace InlineMarkup

/-! ## 1. Props that are set one after the other -/

namespace Props

/-- The props that pairs set: the names in the order of their first appearance, and with each the
value that it is given last. -/
def collected (pairs : List (Text × Text)) : Props :=
  (pairs.map Prod.fst).eraseDups.map fun name => (name, (pairs.reverse.lookup name).getD [])

/-- Setting a prop in a list of props with names of their own. -/
theorem set_map {name value : Text} {f : Text → Text} : ∀ {names : List Text}, names.Nodup →
    set name value (names.map fun n => (n, f n)) =
      (if name ∈ names then names else names ++ [name]).map
        fun n => (n, if n = name then value else f n) := by
  intro names
  induction names with
  | nil => simp [set]
  | cons n names ih =>
    intro h
    rw [List.nodup_cons] at h
    by_cases hn : n = name
    · subst hn
      have hothers : ∀ m ∈ names, (m, if m = n then value else f m) = (m, f m) := by
        intro m hm
        have hmn : m ≠ n := fun heq => h.1 (heq ▸ hm)
        rw [if_neg hmn]
      rw [List.map_cons, set, if_pos rfl, if_pos List.mem_cons_self, List.map_cons, if_pos rfl,
        List.map_congr_left hothers]
    · rw [List.map_cons, set, if_neg hn, ih h.2]
      by_cases hin : name ∈ names
      · simp [hin, hn]
      · simp [hin, hn, Ne.symm hn]

/-- A name that is added comes last, unless it has appeared before. -/
theorem eraseDups_concat (names : List Text) (name : Text) : (names ++ [name]).eraseDups =
    if name ∈ names.eraseDups then names.eraseDups else names.eraseDups ++ [name] := by
  rw [List.eraseDups_append]
  by_cases h : name ∈ names
  · simp [h, List.removeAll]
  · simp [h, List.removeAll, List.eraseDups_cons]

theorem nodup_eraseDups (names : List Text) : names.eraseDups.Nodup := by
  induction names using List.reverseRecOn with
  | nil => exact List.nodup_nil
  | append_singleton names name ih =>
    rw [eraseDups_concat]
    split
    · exact ih
    · rename_i h
      exact List.Nodup.append ih (List.nodup_singleton name) (List.disjoint_singleton.mpr h)

theorem collected_concat (pairs : List (Text × Text)) (p : Text × Text) :
    collected (pairs ++ [p]) = set p.1 p.2 (collected pairs) := by
  have hvalues : ∀ name, ((pairs ++ [p]).reverse.lookup name).getD [] =
      if name = p.1 then p.2 else (pairs.reverse.lookup name).getD [] := by
    intro name
    rw [List.reverse_append, List.reverse_singleton, List.singleton_append, List.lookup_cons]
    by_cases h : name = p.1
    · simp [h]
    · rw [if_neg h, beq_false_of_ne h]
  rw [collected, collected, set_map (nodup_eraseDups _), List.map_append, List.map_singleton,
    eraseDups_concat]
  simp only [hvalues]

/-- **Setting props from left to right** leaves each name where it first appears, with its last
value. -/
theorem ofPairs_eq_collected (pairs : List (Text × Text)) : ofPairs pairs = collected pairs := by
  induction pairs using List.reverseRecOn with
  | nil => rfl
  | append_singleton pairs p ih =>
    rw [collected_concat, ← ih, ofPairs, List.foldl_append]
    rfl

end Props

namespace Element

/-! ## 2. The attributes of a tag -/

/-- The prop that the first of the tokens give a quoted literal. -/
def stringProp? : List Token → Option (Text × Text)
  | ⟨.propName, name, _⟩ :: ⟨.string, value, _⟩ :: _ => some (name, value)
  | ⟨.propName, name, _⟩ :: ⟨.equals, _, _⟩ :: ⟨.string, value, _⟩ :: _ => some (name, value)
  | _ => none

/-- The prop that the first of the tokens give code, without the braces of the code. -/
def codeProp? : List Token → Option (Text × Text)
  | ⟨.propName, name, _⟩ :: ⟨.code, value, _⟩ :: _ => some (name, Text.unbraced value)
  | ⟨.propName, name, _⟩ :: ⟨.equals, _, _⟩ :: ⟨.code, value, _⟩ :: _ =>
    some (name, Text.unbraced value)
  | _ => none

/-- The props that tokens give a quoted literal, wherever that is. -/
def stringProps (ts : List Token) : List (Text × Text) := ts.tails.filterMap stringProp?

/-- The props that tokens give code, wherever that is. -/
def codeProps (ts : List Token) : List (Text × Text) := ts.tails.filterMap codeProp?

/-- **The reader of attributes sets the props of every place**, from left to right. -/
theorem attributes_eq_foldl (strings codes : Props) (ts : List Token)
    (h : ∀ t ∈ ts, inTag t = true) : attributes strings codes ts =
      ((stringProps ts).foldl (fun props p => Props.set p.1 p.2 props) strings,
        (codeProps ts).foldl (fun props p => Props.set p.1 p.2 props) codes, []) := by
  induction strings, codes, ts using attributes.induct with
  | case1 strings codes => rfl
  | case2 strings codes l p rest => exact absurd (h _ List.mem_cons_self) (by simp [inTag])
  | case3 strings codes l p rest => exact absurd (h _ List.mem_cons_self) (by simp [inTag])
  | case4 strings codes name _ value _ rest ih
  | case5 strings codes name _ value _ rest ih =>
    rewrite [attributes, ih (fun t ht => h t (by simp [ht]))]
    rfl
  | case6 strings codes name _ _ _ value _ rest ih
  | case7 strings codes name _ _ _ value _ rest ih =>
    rewrite [attributes, ih (fun t ht => h t (by simp [ht]))]
    rfl
  | case8 strings codes t rest h₁ h₂ h₃ h₄ h₅ h₆ ih =>
    have hstring : stringProp? (t :: rest) = none := by
      unfold stringProp?
      split
      · rename_i heq
        cases heq
        exact (h₃ _ _ _ _ _ rfl rfl).elim
      · rename_i heq
        cases heq
        exact (h₅ _ _ _ _ _ _ _ rfl rfl).elim
      · rfl
    have hcode : codeProp? (t :: rest) = none := by
      unfold codeProp?
      split
      · rename_i heq
        cases heq
        exact (h₄ _ _ _ _ _ rfl rfl).elim
      · rename_i heq
        cases heq
        exact (h₆ _ _ _ _ _ _ _ rfl rfl).elim
      · rfl
    rw [attributes.eq_8 strings codes t rest h₁ h₂ h₃ h₄ h₅ h₆,
      ih (fun t ht => h t (List.mem_cons_of_mem _ ht))]
    simp [stringProps, codeProps, hstring, hcode]

theorem attributes_eq_collected {ts : List Token} (h : ∀ t ∈ ts, inTag t = true) :
    attributes [] [] ts =
      (Props.collected (stringProps ts), Props.collected (codeProps ts), []) := by
  rw [attributes_eq_foldl [] [] ts h, ← Props.ofPairs_eq_collected, ← Props.ofPairs_eq_collected]
  rfl

/-! ## 3. The grammar in parts -/

/-- A part of an element's content: a token by itself, or the tokens of an element. -/
inductive Part where
  | token (t : Token)
  | element (ts : List Token) (e : Element)

/-- The tokens of a part. -/
def Part.tokens : Part → List Token
  | .token t => [t]
  | .element ts _ => ts

/-- The children that a part stands for: none if it is passed over or is a block with nothing in
it. -/
def Part.nodes : Part → List Node
  | .token t =>
    match t.kind with
    | .text => [.text t.lexeme]
    | .code => if Text.unbraced t.lexeme = [] then [] else [.code (Text.unbraced t.lexeme)]
    | _ => []
  | .element _ e => [e.toNode]

/-- The kinds of token that may stand by themselves among the children of an element. -/
def standsAlone (kind : Token.Kind) : Prop :=
  kind = .text ∨ kind = .code ∨ isPassedOver kind = true

/-- The element with the name and the attributes of a start tag. -/
def ofStart (name : Token) (inside : List Token) (children : List Node) : Element where
  tag := name.lexeme
  strings := Props.collected (stringProps inside)
  codes := Props.collected (codeProps inside)
  children := children

/-- **The grammar of elements.**  After `<` and a name comes whatever does not end the tag.  The tag
ends with `/>`; or it ends with `>`, and then come parts that each are a text, a block, a token that
is passed over or again an element, and after them `</`, the same name and `>`. -/
inductive Derives : List Token → Element → Prop
  | empty {opening name stop : Token} {inside : List Token} : opening.kind = .opening →
      name.kind = .tagName → (∀ t ∈ inside, inTag t = true) → stop.kind = .emptyTagEnd →
      Derives (opening :: name :: (inside ++ [stop])) (ofStart name inside [])
  | full {opening name stop closing name' stop' : Token} {inside : List Token}
      {parts : List Part} : opening.kind = .opening →
      name.kind = .tagName → (∀ t ∈ inside, inTag t = true) → stop.kind = .tagEnd →
      (∀ t, .token t ∈ parts → standsAlone t.kind) →
      (∀ ts e, .element ts e ∈ parts → Derives ts e) →
      closing.kind = .closing → name'.kind = .tagName → name'.lexeme = name.lexeme →
      stop'.kind = .tagEnd →
      Derives (opening :: name :: (inside ++ stop :: (parts.flatMap Part.tokens ++
        [closing, name', stop']))) (ofStart name inside (parts.flatMap Part.nodes))

/-- Parts spell the children that they stand for. -/
theorem spellsContent_of_parts : ∀ {parts : List Part},
    (∀ t, .token t ∈ parts → standsAlone t.kind) → (∀ ts e, .element ts e ∈ parts → Spells ts e) →
    SpellsContent (parts.flatMap Part.tokens) (parts.flatMap Part.nodes) := by
  intro parts
  induction parts with
  | nil => exact fun _ _ => .nil
  | cons part parts ih =>
    intro htokens helements
    have hrest := ih (fun t ht => htokens t (List.mem_cons_of_mem _ ht))
      (fun ts e h => helements ts e (List.mem_cons_of_mem _ h))
    rw [List.flatMap_cons, List.flatMap_cons]
    cases part with
    | element ts e => exact (helements ts e List.mem_cons_self).content hrest
    | token t =>
      simp only [Part.tokens, Part.nodes, List.singleton_append]
      rcases htokens t List.mem_cons_self with hkind | hkind | hkind
      · simp only [hkind, List.singleton_append]
        exact .text hkind hrest
      · simp only [hkind]
        split
        · rename_i hempty
          exact .emptyCode hkind hempty hrest
        · rename_i hne
          exact .code hkind hne hrest
      · cases hk : t.kind with
        | text | code | opening | closing =>
          rw [hk] at hkind
          cases hkind
        | _ => exact .passed hkind hrest

theorem spells_of_derives {ts : List Token} {e : Element} (h : Derives ts e) : Spells ts e := by
  induction h with
  | empty hopening hname hinside hstop =>
    have hspells := Spells.empty (.intro true hopening hname hinside hstop) rfl
    rwa [attributes_eq_collected hinside] at hspells
  | @full opening name stop closing name' stop' inside parts hopening hname hinside hstop htokens _
      hclosing hname' hlexeme hstop' ih =>
    have hspells := Spells.full (.intro false hopening hname hinside hstop) rfl
      (spellsContent_of_parts htokens ih) (.intro hclosing hname' hlexeme hstop')
    rw [attributes_eq_collected hinside] at hspells
    simpa [StartTag.element, ofStart] using hspells

/-- The tokens `ts` fall into `parts`, which stand for the children `nodes`. -/
structure Falls (ts : List Token) (nodes : List Node) (parts : List Part) : Prop where
  tokens : ts = parts.flatMap Part.tokens
  nodes : nodes = parts.flatMap Part.nodes
  alone : ∀ t, .token t ∈ parts → standsAlone t.kind
  elements : ∀ us e, .element us e ∈ parts → Derives us e

namespace Falls

variable {ts : List Token} {nodes : List Node} {parts : List Part}

theorem nil : Falls [] [] [] :=
  ⟨rfl, rfl, fun _ h => absurd h List.not_mem_nil, fun _ _ h => absurd h List.not_mem_nil⟩

theorem token (h : Falls ts nodes parts) {t : Token} (ht : standsAlone t.kind) :
    Falls (t :: ts) ((Part.token t).nodes ++ nodes) (.token t :: parts) := by
  refine ⟨?_, ?_, ?_, ?_⟩
  · rw [List.flatMap_cons, ← h.tokens]
    rfl
  · rw [List.flatMap_cons, ← h.nodes]
  · intro u hu
    rcases List.mem_cons.mp hu with hu | hu
    · cases hu
      exact ht
    · exact h.alone u hu
  · intro us e he
    rcases List.mem_cons.mp he with he | he
    · cases he
    · exact h.elements us e he

theorem element (h : Falls ts nodes parts) {us : List Token} {e : Element} (he : Derives us e) :
    Falls (us ++ ts) (e.toNode :: nodes) (.element us e :: parts) := by
  refine ⟨?_, ?_, ?_, ?_⟩
  · rw [List.flatMap_cons, ← h.tokens]
    rfl
  · rw [List.flatMap_cons, ← h.nodes]
    rfl
  · intro u hu
    rcases List.mem_cons.mp hu with hu | hu
    · cases hu
    · exact h.alone u hu
  · intro vs f hf
    rcases List.mem_cons.mp hf with hf | hf
    · cases hf
      exact he
    · exact h.elements vs f hf

/-- Parts between a start tag and its closing tag are an element. -/
theorem derives (h : Falls ts nodes parts) {head tail : List Token} {s : StartTag}
    (hhead : SpellsStart head s) (hempty : s.isEmpty = false) (htail : SpellsClosing s.tag tail) :
    Derives (head ++ (ts ++ tail)) (s.element nodes) := by
  cases hhead with
  | @intro opening name stop inside isEmpty hopening hname hinside hstop =>
    cases hempty
    cases htail with
    | intro hclosing hname' hlexeme hstop' =>
      have hderives := Derives.full hopening hname hinside hstop h.alone h.elements hclosing hname'
        hlexeme hstop'
      rw [attributes_eq_collected hinside, h.tokens, h.nodes]
      simpa [StartTag.element, ofStart] using hderives

end Falls

theorem derives_of_emptyTag {head : List Token} {s : StartTag} (h : SpellsStart head s)
    (hempty : s.isEmpty = true) : Derives head (s.element []) := by
  cases h with
  | @intro opening name stop inside isEmpty hopening hname hinside hstop =>
    cases hempty
    rw [attributes_eq_collected hinside]
    exact .empty hopening hname hinside hstop

/-- **What is spelled falls into parts.** -/
theorem exists_parts {ts : List Token} {nodes : List Node} (h : SpellsContent ts nodes) :
    ∃ parts, Falls ts nodes parts := by
  induction h with
  | nil => exact ⟨[], .nil⟩
  | @text t ts nodes hkind _ ih =>
    obtain ⟨parts, hparts⟩ := ih
    have hfalls := hparts.token (t := t) (.inl hkind)
    simp only [Part.nodes, hkind, List.singleton_append] at hfalls
    exact ⟨_, hfalls⟩
  | @code t ts nodes hkind hne _ ih =>
    obtain ⟨parts, hparts⟩ := ih
    have hfalls := hparts.token (t := t) (.inr (.inl hkind))
    simp only [Part.nodes, hkind, if_neg hne, List.singleton_append] at hfalls
    exact ⟨_, hfalls⟩
  | @emptyCode t ts nodes hkind hempty _ ih =>
    obtain ⟨parts, hparts⟩ := ih
    have hfalls := hparts.token (t := t) (.inr (.inl hkind))
    simp only [Part.nodes, hkind, if_pos hempty, List.nil_append] at hfalls
    exact ⟨_, hfalls⟩
  | @passed t ts nodes hkind _ ih =>
    obtain ⟨parts, hparts⟩ := ih
    have hfalls := hparts.token (t := t) (.inr (.inr hkind))
    have hnone : (Part.token t).nodes = [] := by
      cases hk : t.kind with
      | text | code | opening | closing =>
        rw [hk] at hkind
        cases hkind
      | _ => simp only [Part.nodes, hk]
    rw [hnone] at hfalls
    exact ⟨_, hfalls⟩
  | emptyElement hhead hempty _ ih =>
    obtain ⟨parts, hparts⟩ := ih
    exact ⟨_, hparts.element (derives_of_emptyTag hhead hempty)⟩
  | element hhead hempty _ htail _ ihin ih =>
    obtain ⟨inner, hinner⟩ := ihin
    obtain ⟨parts, hparts⟩ := ih
    have hfalls := hparts.element (hinner.derives hhead hempty htail)
    rw [List.append_assoc, List.append_assoc] at hfalls
    exact ⟨_, hfalls⟩

/-- **The two ways to say the grammar agree.** -/
theorem derives_iff_spells {ts : List Token} {e : Element} : Derives ts e ↔ Spells ts e := by
  constructor
  · exact spells_of_derives
  · intro h
    cases h with
    | empty hhead hempty => exact derives_of_emptyTag hhead hempty
    | full hhead hempty hinner htail =>
      obtain ⟨parts, hparts⟩ := exists_parts hinner
      exact hparts.derives hhead hempty htail

/-! ## 4. Failures -/

/-- If it fails, then with an error about elements. -/
def FailsBySyntax {α : Type} (x : Except Failure α) : Prop :=
  ∀ f, x = .error f → f.error.fault.stage = .element

theorem FailsAt.failsBySyntax {α : Type} {P : Option Int → Prop} {x : Except Failure α}
    (h : FailsAt P x) : FailsBySyntax x := fun f hf => (h f hf).1

theorem failsBySyntax_read (last : Option Int) (ts : List Token) :
    FailsBySyntax (read last ts) :=
  (failsAt_read (P := fun _ => True) (fun _ => trivial) fun _ _ => trivial).failsBySyntax

theorem failsBySyntax_readWhole (last : Option Int) (ts : List Token) :
    FailsBySyntax (readWhole last ts) :=
  (failsAt_readWhole (P := fun _ => True) (fun _ => trivial) fun _ _ => trivial).failsBySyntax

theorem readWhole_eq_ok_iff {last : Option Int} {ts rest : List Token} {e : Element} :
    readWhole last ts = .ok (e, rest) ↔ rest = [] ∧ Derives ts e := by
  rw [readWhole, bind_eq_ok, derives_iff_spells]
  constructor
  · rintro ⟨⟨root, left⟩, hread, h⟩
    cases left with
    | nil =>
      cases h
      obtain ⟨us, rfl, hus⟩ := read_eq_ok_iff.mp hread
      rw [List.append_nil]
      exact ⟨rfl, hus⟩
    | cons extra left => cases h
  · rintro ⟨rfl, h⟩
    exact ⟨(e, []), read_eq_ok_iff.mpr ⟨ts, (List.append_nil ts).symm, h⟩, rfl⟩

/-! ## 5. Cursors -/

/-- A reader at a cursor reads the tokens from its place on. -/
theorem cursor_run {α : Type} (tokens : List Token) (i : Nat)
    (reader : List Token → Except Failure (α × List Token)) :
    Cursor.run ⟨tokens, i⟩ reader =
      Cursor.told tokens (i + (tokens.drop i).length) (reader (tokens.drop i)) := by
  rw [Cursor.run, Cursor.remaining?, if_pos (Int.natCast_nonneg i), Int.toNat_natCast]

/-- The tokens from a place on are those up to a later place and those from there on. -/
theorem drop_eq_append {tokens : List Token} {i j : Nat} (hij : i ≤ j) :
    tokens.drop i = (tokens.take j).drop i ++ tokens.drop j := by
  obtain ⟨n, rfl⟩ := Nat.exists_eq_add_of_le hij
  rw [List.drop_take, Nat.add_sub_cancel_left, ← List.drop_drop, List.take_append_drop]

theorem Derives.ne_nil {ts : List Token} {e : Element} (h : Derives ts e) : ts ≠ [] := by
  cases h with
  | empty => exact List.cons_ne_nil _ _
  | full => exact List.cons_ne_nil _ _

/-- An element is read from a place exactly if tokens up to a later place derive it. -/
theorem read_drop_eq_ok_iff {last : Option Int} {tokens rest : List Token} {i : Nat} {e : Element} :
    read last (tokens.drop i) = .ok (e, rest) ↔ ∃ j, i < j ∧ j ≤ tokens.length ∧
      rest = tokens.drop j ∧ Derives ((tokens.take j).drop i) e := by
  simp only [read_eq_ok_iff, ← derives_iff_spells]
  constructor
  · rintro ⟨us, hdrop, hus⟩
    have hlen := congrArg List.length hdrop
    have hpos := List.length_pos_iff.mpr hus.ne_nil
    rw [List.length_drop, List.length_append] at hlen
    have htaken : (tokens.take (i + us.length)).drop i = us := by
      rw [List.drop_take, Nat.add_sub_cancel_left, hdrop, List.take_left]
    refine ⟨i + us.length, by omega, by omega, ?_, by rwa [htaken]⟩
    rw [← List.drop_drop, hdrop, List.drop_left]
  · rintro ⟨j, hij, -, rfl, hus⟩
    exact ⟨_, drop_eq_append (Nat.le_of_lt hij), hus⟩

/-- **A cursor reads an element where a stretch of tokens derives one**, and then stands after
it. -/
theorem cursor_element_eq_ok_iff {tokens : List Token} {i : Nat} {e : Element} {c : Cursor} :
    Cursor.element ⟨tokens, i⟩ = (.ok e, c) ↔ ∃ j : Nat, c = ⟨tokens, j⟩ ∧ i < j ∧
      j ≤ tokens.length ∧ Derives ((tokens.take j).drop i) e := by
  have hplace : ∀ j : Nat, i < j → j ≤ tokens.length →
      Cursor.before tokens (i + (tokens.drop i).length) (tokens.drop j) = ⟨tokens, j⟩ := by
    intro j hij hj
    rw [Cursor.before, List.length_drop, List.length_drop]
    congr 1
    omega
  rw [Cursor.element_eq_run, cursor_run, Cursor.told_eq_ok_iff]
  simp only [read_drop_eq_ok_iff]
  constructor
  · rintro ⟨rest, ⟨j, hij, hj, rfl, hderives⟩, rfl⟩
    exact ⟨j, hplace j hij hj, hij, hj, hderives⟩
  · rintro ⟨j, rfl, hij, hj, hderives⟩
    exact ⟨tokens.drop j, ⟨j, hij, hj, rfl, hderives⟩, (hplace j hij hj).symm⟩

/-- A cursor that does not read what it is asked for fails as its reader does. -/
theorem cursor_fails {α : Type} {tokens : List Token} {i : Nat}
    {reader : List Token → Except Failure (α × List Token)}
    (hfails : FailsBySyntax (reader (tokens.drop i)))
    (h : ∀ a c, Cursor.run ⟨tokens, i⟩ reader ≠ (.ok a, c)) :
    ∃ error : MarkupError, (Cursor.run ⟨tokens, i⟩ reader).1 = .error (.markup error) ∧
      error.fault.stage = .element := by
  rw [cursor_run] at h ⊢
  cases hread : reader (tokens.drop i) with
  | ok read =>
    rw [hread] at h
    exact absurd rfl (h read.1 _)
  | error f => exact ⟨f.error, rfl, hfails f hread⟩

theorem cursor_document_eq_ok_iff {tokens : List Token} {i : Nat} {e : Element} :
    (∃ c, Cursor.document ⟨tokens, i⟩ = (.ok e, c)) ↔ Derives (tokens.drop i) e := by
  rw [Cursor.document_eq_run, cursor_run]
  simp only [Cursor.told_eq_ok_iff, readWhole_eq_ok_iff]
  constructor
  · rintro ⟨c, rest, ⟨-, h⟩, -⟩
    exact h
  · intro h
    exact ⟨_, [], ⟨rfl, h⟩, rfl⟩

theorem lt_of_derives {tokens : List Token} {i j : Nat} {e : Element}
    (h : Derives ((tokens.take j).drop i) e) : i < j := by
  by_contra hle
  refine h.ne_nil (List.drop_eq_nil_of_le ?_)
  rw [List.length_take]
  omega

/-- From a place there is one element at most, and one place where it ends. -/
theorem derives_unique {tokens : List Token} {i j j' : Nat} {e e' : Element}
    (hj : j ≤ tokens.length) (hj' : j' ≤ tokens.length)
    (h : Derives ((tokens.take j).drop i) e) (h' : Derives ((tokens.take j').drop i) e') :
    j = j' ∧ e = e' := by
  have hread := cursor_element_eq_ok_iff.mpr ⟨j, rfl, lt_of_derives h, hj, h⟩
  have hread' := cursor_element_eq_ok_iff.mpr ⟨j', rfl, lt_of_derives h', hj', h'⟩
  rw [hread, Prod.mk.injEq, Cursor.mk.injEq] at hread'
  obtain ⟨he, -, hplace⟩ := hread'
  exact ⟨Int.ofNat.inj hplace, Except.ok.inj he⟩

theorem ofTokens_eq_ok_iff_derives {tokens : List Token} {e : Element} :
    ofTokens tokens = .ok e ↔ Derives tokens e := by
  rw [ofTokens_eq_ok_iff, derives_iff_spells]

theorem ofTokens_fails {tokens : List Token} (h : ∀ e, ¬ Derives tokens e) :
    ∃ error : MarkupError, ofTokens tokens = .error error ∧ error.fault.stage = .element := by
  unfold ofTokens
  split
  · rename_i e rest hread
    exact absurd (readWhole_eq_ok_iff.mp hread).2 (h e)
  · rename_i f hread
    exact ⟨f.error, rfl, failsBySyntax_readWhole _ _ f hread⟩

/-- **The readers of elements accept exactly the grammar**, whatever the tokens and the place.

An element is read from a place exactly if the tokens up to a later place derive it, and the cursor
then stands at that place, of which, as of the element, there is only one.  If there is none, the
cursor fails with an error about elements and not for want of a token.  A whole list of tokens, or
what is left of it, is read exactly if all of it derives the element, and fails likewise if it
derives none. -/
theorem cursor_accepts_grammar (tokens : List Token) (i : Nat) :
    (∀ e c, Cursor.element ⟨tokens, i⟩ = (.ok e, c) ↔ ∃ j : Nat, c = ⟨tokens, j⟩ ∧ i < j ∧
      j ≤ tokens.length ∧ Derives ((tokens.take j).drop i) e) ∧
    (∀ e e' : Element, ∀ j ≤ tokens.length, ∀ j' ≤ tokens.length,
      Derives ((tokens.take j).drop i) e → Derives ((tokens.take j').drop i) e' →
      j = j' ∧ e = e') ∧
    ((∀ e, ∀ j ≤ tokens.length, ¬ Derives ((tokens.take j).drop i) e) →
      ∃ error : MarkupError, (Cursor.element ⟨tokens, i⟩).1 = .error (.markup error) ∧
        error.fault.stage = .element) ∧
    (∀ e, (∃ c, Cursor.document ⟨tokens, i⟩ = (.ok e, c)) ↔ Derives (tokens.drop i) e) ∧
    ((∀ e, ¬ Derives (tokens.drop i) e) →
      ∃ error : MarkupError, (Cursor.document ⟨tokens, i⟩).1 = .error (.markup error) ∧
        error.fault.stage = .element) ∧
    (∀ e, ofTokens tokens = .ok e ↔ Derives tokens e) ∧
    ((∀ e, ¬ Derives tokens e) →
      ∃ error : MarkupError, ofTokens tokens = .error error ∧ error.fault.stage = .element) := by
  refine ⟨fun e c => cursor_element_eq_ok_iff, fun e e' j hj j' hj' => derives_unique hj hj',
    fun hnone => ?_, fun e => cursor_document_eq_ok_iff, fun hnone => ?_,
    fun e => ofTokens_eq_ok_iff_derives, fun hnone => ?_⟩
  · rw [Cursor.element_eq_run]
    refine cursor_fails (failsBySyntax_read _ _) fun e c h => ?_
    rw [← Cursor.element_eq_run] at h
    obtain ⟨j, -, -, hj, hderives⟩ := cursor_element_eq_ok_iff.mp h
    exact hnone e j hj hderives
  · rw [Cursor.document_eq_run]
    refine cursor_fails (failsBySyntax_readWhole _ _) fun e c h => ?_
    rw [← Cursor.document_eq_run] at h
    exact hnone e (cursor_document_eq_ok_iff.mp ⟨c, h⟩)
  · exact ofTokens_fails hnone

end Element

end InlineMarkup
