import Mathlib
import InlineMarkup.Element.Parser

/-!
# The tokens that spell an element

The readers of elements are lenient: an attribute list passes over what is no attribute, and
between children everything that can start neither a child nor a closing tag is passed over.
`Spells` says which tokens make up which element, leniency included, without a reader and without
rounds.  The readers accept exactly this (`read_eq_ok_iff`, `ofTokens_eq_ok_iff`).

There is one induction for each direction.  Soundness follows the rounds of `childNodes`
(`spellsContent_of_childNodes`), completeness the derivation (`SpellsContent.childNodes`); a
derivation of `n` tokens takes at most `n` rounds and one for the closing tag, so the rounds that
`read` starts with are always enough.
-/

namespace InlineMarkup

/-- A computation that goes on after another succeeds only if both do. -/
theorem bind_eq_ok {ε α β : Type} {x : Except ε α} {f : α → Except ε β} {b : β} :
    (x >>= f) = .ok b ↔ ∃ a, x = .ok a ∧ f a = .ok b := by
  cases x with
  | error e =>
    constructor
    · intro h; cases h
    · rintro ⟨a, h, -⟩; cases h
  | ok a =>
    constructor
    · intro h; exact ⟨a, rfl, h⟩
    · rintro ⟨a', h, hb⟩; cases h; exact hb

namespace Element

/-! ## 1. The grammar -/

/-- The token does not end a tag. -/
def inTag (t : Token) : Bool := t.kind != .tagEnd && t.kind != .emptyTagEnd

/-- The tokens of a start tag: `<`, a name, anything that does not end a tag, and the end. -/
inductive SpellsStart : List Token → StartTag → Prop
  | intro {opening name stop : Token} {inside : List Token} (isEmpty : Bool) :
      opening.kind = .opening → name.kind = .tagName → (∀ t ∈ inside, inTag t = true) →
      stop.kind = (if isEmpty then .emptyTagEnd else .tagEnd) →
      SpellsStart (opening :: name :: (inside ++ [stop]))
        ⟨opening.position, name.lexeme, (attributes [] [] inside).1,
          (attributes [] [] inside).2.1, isEmpty⟩

/-- The tokens of the closing tag of an element with this name. -/
inductive SpellsClosing (tag : Text) : List Token → Prop
  | intro {closing name stop : Token} : closing.kind = .closing → name.kind = .tagName →
      name.lexeme = tag → stop.kind = .tagEnd → SpellsClosing tag [closing, name, stop]

/-- The kinds of token that are passed over between children. -/
def isPassedOver : Token.Kind → Bool
  | .tagEnd | .emptyTagEnd | .tagName | .propName | .equals | .string => true
  | _ => false

/-- The tokens of the children of an element. -/
inductive SpellsContent : List Token → List Node → Prop
  | nil : SpellsContent [] []
  | text {t : Token} {ts : List Token} {nodes : List Node} : t.kind = .text →
      SpellsContent ts nodes → SpellsContent (t :: ts) (.text t.lexeme :: nodes)
  | code {t : Token} {ts : List Token} {nodes : List Node} : t.kind = .code →
      Text.unbraced t.lexeme ≠ [] → SpellsContent ts nodes →
      SpellsContent (t :: ts) (.code (Text.unbraced t.lexeme) :: nodes)
  | emptyCode {t : Token} {ts : List Token} {nodes : List Node} : t.kind = .code →
      Text.unbraced t.lexeme = [] → SpellsContent ts nodes → SpellsContent (t :: ts) nodes
  | passed {t : Token} {ts : List Token} {nodes : List Node} : isPassedOver t.kind = true →
      SpellsContent ts nodes → SpellsContent (t :: ts) nodes
  | emptyElement {head ts : List Token} {s : StartTag} {nodes : List Node} :
      SpellsStart head s → s.isEmpty = true → SpellsContent ts nodes →
      SpellsContent (head ++ ts) ((s.element []).toNode :: nodes)
  | element {head inner tail ts : List Token} {s : StartTag} {children nodes : List Node} :
      SpellsStart head s → s.isEmpty = false → SpellsContent inner children →
      SpellsClosing s.tag tail → SpellsContent ts nodes →
      SpellsContent (head ++ (inner ++ (tail ++ ts))) ((s.element children).toNode :: nodes)

/-- The tokens of an element. -/
inductive Spells : List Token → Element → Prop
  | empty {head : List Token} {s : StartTag} : SpellsStart head s → s.isEmpty = true →
      Spells head (s.element [])
  | full {head inner tail : List Token} {s : StartTag} {children : List Node} :
      SpellsStart head s → s.isEmpty = false → SpellsContent inner children →
      SpellsClosing s.tag tail → Spells (head ++ (inner ++ tail)) (s.element children)

/-- A child that is an element is spelled as an element is. -/
theorem Spells.content {ts more : List Token} {e : Element} {nodes : List Node} (h : Spells ts e)
    (hmore : SpellsContent more nodes) : SpellsContent (ts ++ more) (e.toNode :: nodes) := by
  cases h with
  | empty hhead hempty => exact .emptyElement hhead hempty hmore
  | full hhead hempty hinner htail =>
    rw [List.append_assoc, List.append_assoc]
    exact .element hhead hempty hinner htail hmore

/-! ## 2. Start tags -/

/-- The first token of a list without ends of tags is the first of the list it was cut from. -/
theorem eq_cons_of_takeWhile {p : Token → Bool} {ts us : List Token} {t : Token}
    (h : ts.takeWhile p = t :: us) : ∃ rest, ts = t :: rest ∧ rest.takeWhile p = us := by
  cases ts with
  | nil => cases h
  | cons a ts =>
    rw [List.takeWhile_cons] at h
    split at h
    · rw [List.cons.injEq] at h
      exact ⟨ts, by rw [h.1], h.2⟩
    · cases h

/-- **An attribute list is read up to the end of its tag**, and what is read depends on nothing
after it. -/
theorem attributes_eq (strings codes : Props) (ts : List Token) :
    attributes strings codes ts =
      ((attributes strings codes (ts.takeWhile inTag)).1,
        (attributes strings codes (ts.takeWhile inTag)).2.1, ts.dropWhile inTag) := by
  induction strings, codes, ts using attributes.induct with
  | case1 strings codes => rfl
  | case2 strings codes l p rest =>
    rw [List.takeWhile_cons_of_neg (by simp [inTag]), List.dropWhile_cons_of_neg (by simp [inTag]),
      attributes, attributes]
  | case3 strings codes l p rest =>
    rw [List.takeWhile_cons_of_neg (by simp [inTag]), List.dropWhile_cons_of_neg (by simp [inTag]),
      attributes, attributes]
  | case4 strings codes name _ value _ rest ih
  | case5 strings codes name _ value _ rest ih =>
    rw [List.takeWhile_cons_of_pos rfl, List.takeWhile_cons_of_pos rfl,
      List.dropWhile_cons_of_pos rfl, List.dropWhile_cons_of_pos rfl, attributes, attributes]
    exact ih
  | case6 strings codes name _ _ _ value _ rest ih
  | case7 strings codes name _ _ _ value _ rest ih =>
    rw [List.takeWhile_cons_of_pos rfl, List.takeWhile_cons_of_pos rfl,
      List.takeWhile_cons_of_pos rfl, List.dropWhile_cons_of_pos rfl,
      List.dropWhile_cons_of_pos rfl, List.dropWhile_cons_of_pos rfl, attributes, attributes]
    exact ih
  | case8 strings codes t rest h₁ h₂ h₃ h₄ h₅ h₆ ih =>
    have ht : inTag t = true := by
      obtain ⟨kind, lexeme, position⟩ := t
      cases kind with
      | tagEnd => exact (h₁ _ _ rfl).elim
      | emptyTagEnd => exact (h₂ _ _ rfl).elim
      | _ => rfl
    have hskip : attributes strings codes (t :: rest.takeWhile inTag)
        = attributes strings codes (rest.takeWhile inTag) := by
      rw [attributes]
      · exact h₁
      · exact h₂
      · intro name p value p' us ht hus
        obtain ⟨rest', rfl, -⟩ := eq_cons_of_takeWhile hus
        exact h₃ _ _ _ _ _ ht rfl
      · intro name p value p' us ht hus
        obtain ⟨rest', rfl, -⟩ := eq_cons_of_takeWhile hus
        exact h₄ _ _ _ _ _ ht rfl
      · intro name p mark p' value p'' us ht hus
        obtain ⟨rest', rfl, hus'⟩ := eq_cons_of_takeWhile hus
        obtain ⟨rest'', rfl, -⟩ := eq_cons_of_takeWhile hus'
        exact h₅ _ _ _ _ _ _ _ ht rfl
      · intro name p mark p' value p'' us ht hus
        obtain ⟨rest', rfl, hus'⟩ := eq_cons_of_takeWhile hus
        obtain ⟨rest'', rfl, -⟩ := eq_cons_of_takeWhile hus'
        exact h₆ _ _ _ _ _ _ _ ht rfl
    rw [List.takeWhile_cons_of_pos ht, List.dropWhile_cons_of_pos ht, hskip,
      attributes.eq_8 strings codes t rest h₁ h₂ h₃ h₄ h₅ h₆]
    exact ih

theorem takeWhile_inTag_append {inside : List Token} {stop : Token} (rest : List Token)
    (hin : ∀ t ∈ inside, inTag t = true) (hstop : inTag stop = false) :
    (inside ++ stop :: rest).takeWhile inTag = inside ∧
      (inside ++ stop :: rest).dropWhile inTag = stop :: rest := by
  have hs : ¬ inTag stop = true := by rw [hstop]; decide
  constructor
  · rw [List.takeWhile_append_of_pos hin, List.takeWhile_cons_of_neg hs, List.append_nil]
  · rw [List.dropWhile_append_of_pos hin, List.dropWhile_cons_of_neg hs]

/-- What stands after the inside of a tag decides how the tag ends. -/
theorem startTag_cons {opening name : Token} (last : Option Int) (ts : List Token)
    (hopen : opening.kind = .opening) (hname : name.kind = .tagName) :
    startTag last (opening :: name :: ts) =
      match ts.dropWhile inTag with
      | ⟨.emptyTagEnd, _, _⟩ :: rest =>
        .ok (⟨opening.position, name.lexeme, (attributes [] [] (ts.takeWhile inTag)).1,
          (attributes [] [] (ts.takeWhile inTag)).2.1, true⟩, rest)
      | ⟨.tagEnd, _, _⟩ :: rest =>
        .ok (⟨opening.position, name.lexeme, (attributes [] [] (ts.takeWhile inTag)).1,
          (attributes [] [] (ts.takeWhile inTag)).2.1, false⟩, rest)
      | rest =>
        .error (.at (.unterminatedStartTag name.lexeme) (some opening.position) rest) := by
  rw [startTag, if_neg (not_not.mpr hopen)]
  dsimp only
  rewrite [if_neg (not_not.mpr hname), attributes_eq]
  rfl

/-- **Start tags are read as they are spelled.** -/
theorem startTag_eq_ok_iff {last : Option Int} {ts rest : List Token} {s : StartTag} :
    startTag last ts = .ok (s, rest) ↔ ∃ head, ts = head ++ rest ∧ SpellsStart head s := by
  constructor
  · intro h
    match ts with
    | [] => cases h
    | [opening] =>
      rw [startTag] at h
      split at h
      · cases h
      · cases h
    | opening :: name :: ts =>
      by_cases hopen : opening.kind = .opening
      case neg =>
        rw [startTag, if_pos hopen] at h
        cases h
      by_cases hname : name.kind = .tagName
      case neg =>
        rw [startTag, if_neg (not_not.mpr hopen)] at h
        dsimp only at h
        rw [if_pos hname] at h
        cases h
      rw [startTag_cons last ts hopen hname] at h
      have hin : ∀ t ∈ ts.takeWhile inTag, inTag t = true := fun t ht => List.mem_takeWhile_imp ht
      have hsplit : ts = ts.takeWhile inTag ++ ts.dropWhile inTag :=
        List.takeWhile_append_dropWhile.symm
      split at h
      · rename_i l p rest' hdrop
        cases h
        refine ⟨opening :: name :: (ts.takeWhile inTag ++ [⟨.emptyTagEnd, l, p⟩]), ?_, ?_⟩
        · rw [List.cons_append, List.cons_append, List.append_assoc, List.singleton_append,
            ← hdrop, ← hsplit]
        · exact .intro true hopen hname hin rfl
      · rename_i l p rest' hdrop
        cases h
        refine ⟨opening :: name :: (ts.takeWhile inTag ++ [⟨.tagEnd, l, p⟩]), ?_, ?_⟩
        · rw [List.cons_append, List.cons_append, List.append_assoc, List.singleton_append,
            ← hdrop, ← hsplit]
        · exact .intro false hopen hname hin rfl
      · cases h
  · rintro ⟨head, rfl, hs⟩
    cases hs with
    | @intro opening name stop inside isEmpty hopen hname hin hstop =>
      have hout : inTag stop = false := by
        rw [inTag, hstop]
        cases isEmpty <;> rfl
      obtain ⟨htake, hdrop⟩ := takeWhile_inTag_append rest hin hout
      rw [List.cons_append, List.cons_append, List.append_assoc, List.singleton_append,
        startTag_cons last _ hopen hname, htake, hdrop]
      obtain ⟨kind, lexeme, position⟩ := stop
      cases isEmpty with
      | true => cases hstop; rfl
      | false => cases hstop; rfl

/-! ## 3. Closing tags and children -/

theorem closingTag_eq_ok_iff {tag : Text} {position : Int} {all ts rest : List Token} :
    closingTag tag position all ts = .ok rest ↔ ∃ name stop, ts = name :: stop :: rest ∧
      name.kind = .tagName ∧ name.lexeme = tag ∧ stop.kind = .tagEnd := by
  constructor
  · intro h
    cases ts with
    | nil => cases h
    | cons name ts =>
      rw [closingTag.eq_def] at h
      dsimp only at h
      by_cases hname : name.kind = .tagName
      case neg =>
        rw [if_pos hname] at h
        cases h
      by_cases hlexeme : name.lexeme = tag
      case neg =>
        rw [if_neg (not_not.mpr hname), if_pos hlexeme] at h
        cases h
      rw [if_neg (not_not.mpr hname), if_neg (not_not.mpr hlexeme)] at h
      split at h
      · cases h
        exact ⟨name, _, rfl, hname, hlexeme, rfl⟩
      · cases h
  · rintro ⟨name, ⟨kind, lexeme, position⟩, rfl, hname, hlexeme, hstop⟩
    cases hstop
    rw [closingTag, if_neg (not_not.mpr hname), if_neg (not_not.mpr hlexeme)]

/-- **What `childNodes` accepts is spelled.**  The induction is on the rounds: every round but the
last takes tokens that spell one more child, or none. -/
theorem spellsContent_of_childNodes {last : Option Int} : ∀ (rounds : Nat) (start : StartTag)
    (ts : List Token) (nodes : List Node) (rest : List Token),
    childNodes rounds last start ts = .ok (nodes, rest) →
    ∃ inner tail, ts = inner ++ (tail ++ rest) ∧ SpellsContent inner nodes ∧
      SpellsClosing start.tag tail
  | 0, _, _, _, _, h => by rw [childNodes] at h; cases h
  | _ + 1, _, [], _, _, h => by rw [childNodes] at h; cases h
  | rounds + 1, start, t :: ts, nodes, rest, h => by
    rw [childNodes.eq_def] at h
    dsimp only at h
    split at h
    · rename_i hkind
      obtain ⟨rest', hclosing, hret⟩ := bind_eq_ok.mp h
      cases hret
      obtain ⟨name, stop, rfl, hname, hlexeme, hstop⟩ := closingTag_eq_ok_iff.mp hclosing
      exact ⟨[], [t, name, stop], rfl, .nil, .intro hkind hname hlexeme hstop⟩
    · rename_i hkind
      obtain ⟨⟨nodes', rest'⟩, hmore, hret⟩ := bind_eq_ok.mp h
      cases hret
      obtain ⟨inner, tail, rfl, hin, htail⟩ :=
        spellsContent_of_childNodes rounds start ts nodes' rest' hmore
      exact ⟨t :: inner, tail, rfl, .text hkind hin, htail⟩
    · rename_i hkind
      obtain ⟨⟨nodes', rest'⟩, hmore, hret⟩ := bind_eq_ok.mp h
      cases hret
      obtain ⟨inner, tail, rfl, hin, htail⟩ :=
        spellsContent_of_childNodes rounds start ts nodes' rest' hmore
      refine ⟨t :: inner, tail, rfl, ?_, htail⟩
      split
      · rename_i hempty
        exact .emptyCode hkind (List.isEmpty_iff.mp hempty) hin
      · rename_i hempty
        exact .code hkind (fun h => hempty (List.isEmpty_iff.mpr h)) hin
    · obtain ⟨⟨inner, ts₁⟩, hstart, h⟩ := bind_eq_ok.mp h
      obtain ⟨head, hts, hhead⟩ := startTag_eq_ok_iff.mp hstart
      rw [hts]
      dsimp only at h
      split at h
      · rename_i hempty
        obtain ⟨⟨_, ts₂⟩, hpure, h⟩ := bind_eq_ok.mp h
        cases hpure
        obtain ⟨⟨nodes', rest'⟩, hmore, hret⟩ := bind_eq_ok.mp h
        cases hret
        obtain ⟨later, tail, rfl, hlater, htail⟩ :=
          spellsContent_of_childNodes rounds start ts₁ nodes' rest' hmore
        exact ⟨head ++ later, tail, by simp, .emptyElement hhead hempty hlater, htail⟩
      · rename_i hempty
        obtain ⟨⟨grandchildren, ts₂⟩, hchildren, h⟩ := bind_eq_ok.mp h
        obtain ⟨⟨nodes', rest'⟩, hmore, hret⟩ := bind_eq_ok.mp h
        cases hret
        obtain ⟨inside, closing, rfl, hinside, hclosing⟩ :=
          spellsContent_of_childNodes rounds inner ts₁ grandchildren ts₂ hchildren
        obtain ⟨later, tail, rfl, hlater, htail⟩ :=
          spellsContent_of_childNodes rounds start ts₂ nodes' rest' hmore
        exact ⟨head ++ (inside ++ (closing ++ later)), tail, by simp,
          .element hhead (by simpa using hempty) hinside hclosing hlater, htail⟩
    · rename_i h₁ h₂ h₃ h₄
      obtain ⟨inner, tail, rfl, hin, htail⟩ :=
        spellsContent_of_childNodes rounds start ts nodes rest h
      refine ⟨t :: inner, tail, rfl, .passed ?_ hin, htail⟩
      cases hkind : t.kind with
      | closing => exact absurd hkind h₁
      | text => exact absurd hkind h₂
      | code => exact absurd hkind h₃
      | opening => exact absurd hkind h₄
      | _ => rfl

/-- A start tag takes at least three tokens, and its first opens it. -/
theorem SpellsStart.exists_cons {head : List Token} {s : StartTag} (h : SpellsStart head s) :
    ∃ t rest, head = t :: rest ∧ t.kind = .opening := by
  cases h with
  | intro _ hopen _ _ _ => exact ⟨_, _, rfl, hopen⟩

theorem Spells.exists_cons {ts : List Token} {e : Element} (h : Spells ts e) :
    ∃ t rest, ts = t :: rest ∧ t.kind = .opening := by
  cases h with
  | empty hhead _ => exact hhead.exists_cons
  | full hhead _ _ _ =>
    obtain ⟨t, rest, rfl, hkind⟩ := hhead.exists_cons
    exact ⟨t, _, rfl, hkind⟩

/-- **What is spelled `childNodes` accepts**, given a round for each token and one more. -/
theorem SpellsContent.childNodes {inner : List Token} {nodes : List Node}
    (h : SpellsContent inner nodes) (last : Option Int) : ∀ (start : StartTag)
    (tail rest : List Token) (rounds : Nat), SpellsClosing start.tag tail →
      inner.length < rounds →
      Element.childNodes rounds last start (inner ++ (tail ++ rest)) = .ok (nodes, rest) := by
  induction h with
  | nil =>
    rintro start tail rest (_ | rounds) htail hlen
    · cases hlen
    · cases htail with
      | @intro closing name stop hclosing hname hlexeme hstop =>
        have hread : closingTag start.tag closing.position (closing :: name :: stop :: rest)
            (name :: stop :: rest) = .ok rest :=
          closingTag_eq_ok_iff.mpr ⟨name, stop, rfl, hname, hlexeme, hstop⟩
        rw [List.nil_append, List.cons_append, List.cons_append, List.cons_append,
          List.nil_append, Element.childNodes.eq_def]
        simp only [hclosing, hread]
        rfl
  | text hkind _ ih =>
    rintro start tail rest (_ | rounds) htail hlen
    · cases hlen
    · rw [List.cons_append, Element.childNodes.eq_def]
      simp only [hkind, ih start tail rest rounds htail (Nat.lt_of_succ_lt_succ hlen)]
      rfl
  | @code t ts nodes hkind hne _ ih =>
    rintro start tail rest (_ | rounds) htail hlen
    · cases hlen
    · rw [List.cons_append, Element.childNodes.eq_def]
      simp only [hkind, ih start tail rest rounds htail (Nat.lt_of_succ_lt_succ hlen)]
      simp [bind, Except.bind, pure, Except.pure, hne]
  | @emptyCode t ts nodes hkind hnil _ ih =>
    rintro start tail rest (_ | rounds) htail hlen
    · cases hlen
    · rw [List.cons_append, Element.childNodes.eq_def]
      simp only [hkind, ih start tail rest rounds htail (Nat.lt_of_succ_lt_succ hlen)]
      simp [bind, Except.bind, pure, Except.pure, hnil]
  | @passed t ts nodes hkind _ ih =>
    rintro start tail rest (_ | rounds) htail hlen
    · cases hlen
    · have ih' := ih start tail rest rounds htail (Nat.lt_of_succ_lt_succ hlen)
      rw [List.cons_append, Element.childNodes.eq_def]
      cases hk : t.kind with
      | opening | closing | code | text => rw [hk] at hkind; cases hkind
      | tagEnd | emptyTagEnd | tagName | propName | equals | string => simp only [hk, ih']
  | @emptyElement head ts s nodes hhead hempty _ ih =>
    rintro start tail rest (_ | rounds) htail hlen
    · cases hlen
    · obtain ⟨t, head, rfl, hkind⟩ := hhead.exists_cons
      have hread : startTag last (t :: (head ++ (ts ++ (tail ++ rest))))
          = .ok (s, ts ++ (tail ++ rest)) := startTag_eq_ok_iff.mpr ⟨_, rfl, hhead⟩
      have hround : ts.length < rounds := by
        simp only [List.length_append, List.length_cons] at hlen; omega
      rw [List.append_assoc, List.cons_append, Element.childNodes.eq_def]
      simp only [hkind, hread]
      simp only [bind, Except.bind, pure, Except.pure, hempty, if_true,
        ih start tail rest rounds htail hround]
  | @element head inside closing ts s children nodes hhead hempty _ hclosing _ ihin ih =>
    rintro start tail rest (_ | rounds) htail hlen
    · cases hlen
    · obtain ⟨t, head, rfl, hkind⟩ := hhead.exists_cons
      have hread : startTag last
          (t :: (head ++ (inside ++ (closing ++ (ts ++ (tail ++ rest))))))
          = .ok (s, inside ++ (closing ++ (ts ++ (tail ++ rest)))) :=
        startTag_eq_ok_iff.mpr ⟨_, rfl, hhead⟩
      have hround : inside.length < rounds ∧ ts.length < rounds := by
        simp only [List.length_append, List.length_cons] at hlen; omega
      rw [List.append_assoc, List.append_assoc, List.append_assoc, List.cons_append,
        Element.childNodes.eq_def]
      simp only [hkind, hread]
      simp only [bind, Except.bind, pure, Except.pure, hempty, Bool.false_eq_true, if_false,
        ihin s closing _ rounds hclosing hround.1, ih start tail rest rounds htail hround.2]

/-! ## 4. Elements -/

/-- **An element is read exactly where one is spelled**, and nothing past it is looked at. -/
theorem read_eq_ok_iff {last : Option Int} {ts rest : List Token} {e : Element} :
    read last ts = .ok (e, rest) ↔ ∃ us, ts = us ++ rest ∧ Spells us e := by
  constructor
  · intro h
    rw [read] at h
    obtain ⟨⟨start, ts₁⟩, hstart, hcont⟩ := bind_eq_ok.mp h
    obtain ⟨head, rfl, hhead⟩ := startTag_eq_ok_iff.mp hstart
    dsimp only at hcont
    split at hcont
    · rename_i hempty
      cases hcont
      exact ⟨head, rfl, .empty hhead hempty⟩
    · rename_i hempty
      obtain ⟨⟨nodes, rest'⟩, hnodes, hret⟩ := bind_eq_ok.mp hcont
      cases hret
      obtain ⟨inner, tail, rfl, hinner, htail⟩ := spellsContent_of_childNodes _ _ _ _ _ hnodes
      exact ⟨head ++ (inner ++ tail), by simp,
        .full hhead (by simpa using hempty) hinner htail⟩
  · rintro ⟨us, rfl, hs⟩
    cases hs with
    | empty hhead hempty =>
      rw [read, startTag_eq_ok_iff.mpr ⟨_, rfl, hhead⟩]
      simp only [bind, Except.bind, pure, Except.pure, hempty, if_true]
    | @full head inner tail s children hhead hempty hinner htail =>
      have hread : startTag last (head ++ (inner ++ (tail ++ rest)))
          = .ok (s, inner ++ (tail ++ rest)) := startTag_eq_ok_iff.mpr ⟨_, rfl, hhead⟩
      have hround : inner.length < (inner ++ (tail ++ rest)).length + 1 := by
        simp only [List.length_append]; omega
      rw [List.append_assoc, List.append_assoc, read, hread]
      simp only [bind, Except.bind, pure, Except.pure, hempty, Bool.false_eq_true, if_false,
        hinner.childNodes last s tail rest _ htail hround]

/-- **A list of tokens makes up an element exactly when it spells one.** -/
theorem ofTokens_eq_ok_iff {ts : List Token} {e : Element} :
    ofTokens ts = .ok e ↔ Spells ts e := by
  constructor
  · intro h
    unfold ofTokens at h
    split at h
    · rename_i root rest hwhole
      cases h
      obtain ⟨⟨root', rest'⟩, hread, h⟩ := bind_eq_ok.mp hwhole
      obtain ⟨us, rfl, hus⟩ := read_eq_ok_iff.mp hread
      cases rest' with
      | nil =>
        cases h
        rwa [List.append_nil]
      | cons t rest' => cases h
    · cases h
  · intro h
    have hread : read (endPosition ts) ts = .ok (e, []) :=
      read_eq_ok_iff.mpr ⟨ts, (List.append_nil ts).symm, h⟩
    rw [ofTokens, readWhole, hread]
    rfl

end Element

end InlineMarkup
