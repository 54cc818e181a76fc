import InlineMarkup.Element.Cursor
import InlineMarkup.Proofs.Grammar

/-!
# Reading by steps is reading a list

A cursor reads by single steps, each of which may ask for a token that is not there.  The readers of
lists of tokens take the tokens that are left and cannot ask for more.  Both read the same
(`element_eq_run`, `document_eq_run`): along a reading the cursor stands before the tokens that a
reader of lists would have left (`before`), so where the one looks at the head of a list the other
asks for the token at its place, and gets it (`IsLeft`).  A step therefore never fails for want of a
token, unless the cursor is too far before the first token to begin with; from the start of a list
it does not (`document_eq_ofTokens`).
-/

namespace InlineMarkup.Cursor

open Element (Failure StartTag)

variable {tokens ts rest : List Token} {stop : Int} {t : Token}

/-! ## 1. Places -/

/-- The cursor that stands before `ts`, the last of the tokens up to the place `stop`. -/
def before (tokens : List Token) (stop : Int) (ts : List Token) : Cursor :=
  ⟨tokens, stop - ts.length⟩

/-- What is left of the tokens at that cursor is `ts`. -/
def IsLeft (tokens : List Token) (stop : Int) (ts : List Token) : Prop :=
  (before tokens stop ts).remaining? = some ts

theorem move_before {places : Int} (rest : List Token)
    (h : (ts.length : Int) = rest.length + places) :
    (before tokens stop ts).move places = before tokens stop rest := by
  rw [before, before, move, h]
  congr 1
  dsimp only
  omega

theorem remaining?_move {c : Cursor} (h : c.remaining? = some (t :: ts)) :
    (c.move 1).remaining? = some ts := by
  obtain ⟨tokens, position⟩ := c
  unfold remaining? move at *
  dsimp only at h ⊢
  by_cases hpos : 0 ≤ position
  · have hnext : (position + 1).toNat = position.toNat + 1 := by omega
    rw [if_pos hpos, Option.some.injEq] at h
    rw [if_pos (by omega), hnext, ← List.tail_drop, h, List.tail_cons]
  · rw [if_neg hpos] at h
    split at h
    · rename_i hfar
      rw [Option.some.injEq] at h
      by_cases hlast : position + 1 = 0
      · -- the last token is taken, and the first is the next
        have hone : (tokens.drop (tokens.length - position.natAbs)).length = 1 := by
          rw [List.length_drop]
          omega
        obtain ⟨x, hx⟩ := List.length_eq_one_iff.mp hone
        rw [hx, List.singleton_append, List.cons.injEq] at h
        rw [hlast, if_pos (Int.le_refl 0), Int.toNat_zero, List.drop_zero, h.2]
      · have hne : tokens.drop (tokens.length - position.natAbs) ≠ [] := by
          intro hnil
          have := congrArg List.length hnil
          rw [List.length_drop, List.length_nil] at this
          omega
        have hnext : tokens.length - (position + 1).natAbs =
            tokens.length - position.natAbs + 1 := by
          omega
        rw [if_neg (by omega), if_pos (by omega), hnext, ← List.tail_drop,
          ← List.tail_append_of_ne_nil hne, h, List.tail_cons]
    · cases h

/-- **When a token has been taken, the others are left.** -/
theorem IsLeft.tail (h : IsLeft tokens stop (t :: ts)) : IsLeft tokens stop ts := by
  rw [IsLeft, ← move_before ts (show ((t :: ts).length : Int) = ts.length + 1 by simp)]
  exact remaining?_move h

theorem IsLeft.of_append : ∀ {head : List Token}, IsLeft tokens stop (head ++ rest) →
    IsLeft tokens stop rest
  | [], h => h
  | _ :: _, h => IsLeft.of_append h.tail

/-! ## 2. Steps at a place -/

variable {α β : Type}

theorem bind_apply (work : Work α) (next : α → Work β) (c : Cursor) :
    (work >>= next) c =
      match work c with
      | (.ok a, c) => next a c
      | (.error e, c) => (.error e, c) := rfl

theorem bind_of_ok {work : Work α} {next : α → Work β} {c c' : Cursor} {a : α}
    (h : work c = (.ok a, c')) : (work >>= next) c = next a c' := by
  rw [bind_apply, h]

/-- **A token is found at a place if there are tokens left there.** -/
theorem peek_at {places : Int} (h : IsLeft tokens stop rest)
    (hplaces : (ts.length : Int) = rest.length + places) :
    (before tokens stop ts).peek places = .ok rest.head? := by
  rw [peek, move_before rest hplaces, h]

theorem check_at {places : Int} (kind : Token.Kind) (h : IsLeft tokens stop rest)
    (hplaces : (ts.length : Int) = rest.length + places) :
    Work.check kind places (before tokens stop ts) =
      (.ok (rest.head?.any (·.kind == kind)), before tokens stop ts) := by
  rw [Work.check, check, peek_at h hplaces]
  cases rest with
  | nil => rfl
  | cons t rest => rfl

theorem peek_before (h : IsLeft tokens stop ts) :
    Work.peek 0 (before tokens stop ts) = (.ok ts.head?, before tokens stop ts) := by
  rw [Work.peek, peek_at h (Int.add_zero _).symm]

theorem check_before (kind : Token.Kind) (h : IsLeft tokens stop ts) :
    Work.check kind 0 (before tokens stop ts) =
      (.ok (ts.head?.any (·.kind == kind)), before tokens stop ts) :=
  check_at kind h (Int.add_zero _).symm

theorem advance_before (h : IsLeft tokens stop (t :: ts)) :
    Work.advance (before tokens stop (t :: ts)) = (.ok t, before tokens stop ts) := by
  rw [Work.advance, advance, h]
  dsimp only
  rw [move_before ts (by simp)]

theorem skip_before {t' t'' : Token} :
    Work.skip 3 (before tokens stop (t :: t' :: t'' :: ts)) = (.ok (), before tokens stop ts) := by
  rw [Work.skip, move_before ts (by simp [Int.add_assoc])]

theorem left_before (h : IsLeft tokens stop ts) :
    Work.left (before tokens stop ts) = (.ok ts.length, before tokens stop ts) := by
  rw [Work.left, h, Option.getD_some]

/-! ## 3. Readers of lists -/

/-- What a reader of lists comes to, as work with a cursor. -/
def told (tokens : List Token) (stop : Int) :
    Except Failure (α × List Token) → Except Fault α × Cursor
  | .ok (a, rest) => (.ok a, before tokens stop rest)
  | .error f => (.error (.markup f.error), before tokens stop f.rest)

theorem told_eq_ok_iff {r : Except Failure (α × List Token)} {a : α} {c : Cursor} :
    told tokens stop r = (.ok a, c) ↔ ∃ rest, r = .ok (a, rest) ∧ c = before tokens stop rest := by
  constructor
  · intro h
    cases r with
    | error f => cases h
    | ok read =>
      cases h
      exact ⟨read.2, rfl, rfl⟩
  · rintro ⟨rest, rfl, rfl⟩
    rfl

/-- Work that goes on after other work is told as the readers are that go on after one another. -/
theorem bind_told {work : Work α} {next : α → Work β} {c : Cursor}
    {r : Except Failure (α × List Token)} {more : α × List Token → Except Failure (β × List Token)}
    (hwork : work c = told tokens stop r)
    (hnext : ∀ a rest, r = .ok (a, rest) →
      next a (before tokens stop rest) = told tokens stop (more (a, rest))) :
    (work >>= next) c = told tokens stop (r >>= more) := by
  rw [bind_apply, hwork]
  cases r with
  | ok read => exact hnext read.1 read.2 rfl
  | error f => rfl

/-- The tokens after an equals sign, if there is one. -/
def afterEquals : List Token → List Token
  | [] => []
  | t :: ts => if t.kind = .equals then ts else t :: ts

theorem passOver_before (h : IsLeft tokens stop ts) :
    Work.passOver .equals (before tokens stop ts) = (.ok (), before tokens stop (afterEquals ts)) ∧
      IsLeft tokens stop (afterEquals ts) := by
  rw [Work.passOver, bind_of_ok (check_before .equals h)]
  cases ts with
  | nil => exact ⟨rfl, h⟩
  | cons t ts =>
    rw [List.head?_cons, Option.any_some, afterEquals]
    by_cases hequals : t.kind = .equals
    · rw [if_pos hequals, if_pos (by rw [hequals]; rfl), bind_of_ok (advance_before h)]
      exact ⟨rfl, h.tail⟩
    · rw [if_neg hequals, if_neg (by simpa using hequals)]
      exact ⟨rfl, h⟩

/-- The attributes of a list that starts with the value of a prop, or does not. -/
def valued (strings codes : Props) (name : Text) : List Token → Props × Props × List Token
  | [] => (strings, codes, [])
  | value :: rest =>
    if value.kind = .string then
      Element.attributes (Props.set name value.lexeme strings) codes rest
    else if value.kind = .code then
      Element.attributes strings (Props.set name (Text.unbraced value.lexeme) codes) rest
    else Element.attributes strings codes (value :: rest)

theorem attributes_of_end (strings codes : Props) (ts : List Token)
    (h : t.kind = .tagEnd ∨ t.kind = .emptyTagEnd) :
    Element.attributes strings codes (t :: ts) = (strings, codes, t :: ts) := by
  obtain ⟨kind, lexeme, position⟩ := t
  rcases h with rfl | rfl
  · rw [Element.attributes]
  · rw [Element.attributes]

theorem attributes_of_other (strings codes : Props) (ts : List Token)
    (hend : ¬(t.kind = .tagEnd ∨ t.kind = .emptyTagEnd)) (hprop : t.kind ≠ .propName) :
    Element.attributes strings codes (t :: ts) = Element.attributes strings codes ts := by
  obtain ⟨kind, lexeme, position⟩ := t
  cases kind <;> simp_all [Element.attributes]

/-- A prop takes the value after it, with an equals sign between them or without. -/
theorem attributes_of_propName (strings codes : Props) (ts : List Token) (h : t.kind = .propName) :
    Element.attributes strings codes (t :: ts) =
      valued strings codes t.lexeme (afterEquals ts) := by
  obtain ⟨kind, lexeme, position⟩ := t
  obtain rfl : kind = .propName := h
  cases ts with
  | nil => rfl
  | cons value ts =>
    obtain ⟨kind, l, p⟩ := value
    cases kind with
    | equals =>
      cases ts with
      | nil => rfl
      | cons value ts =>
        obtain ⟨kind, l', p'⟩ := value
        cases kind <;> simp [Element.attributes, afterEquals, valued]
    | _ => simp [Element.attributes, afterEquals, valued]

/-- **Attributes are read by steps as they are from a list.** -/
theorem attributesIn_before (rounds : Nat) : ∀ {ts : List Token} (strings codes : Props),
    IsLeft tokens stop ts → ts.length < rounds →
    Work.attributesIn rounds strings codes (before tokens stop ts) =
      (.ok ((Element.attributes strings codes ts).1, (Element.attributes strings codes ts).2.1),
        before tokens stop (Element.attributes strings codes ts).2.2) := by
  induction rounds with
  | zero => exact fun _ _ _ hlt => absurd hlt (Nat.not_lt_zero _)
  | succ rounds ih =>
    intro ts strings codes h hlt
    rw [Work.attributesIn, bind_of_ok (peek_before h)]
    cases ts with
    | nil => rfl
    | cons t ts =>
      rw [List.length_cons] at hlt
      rw [List.head?_cons]
      dsimp only
      by_cases hend : t.kind = .tagEnd ∨ t.kind = .emptyTagEnd
      · rw [if_pos hend, attributes_of_end strings codes ts hend]
        rfl
      rw [if_neg hend, bind_of_ok (advance_before h)]
      by_cases hprop : t.kind = .propName
      · rw [if_neg (not_not_intro hprop), attributes_of_propName strings codes ts hprop]
        obtain ⟨hpass, hleft⟩ := passOver_before h.tail
        have hshort : (afterEquals ts).length ≤ ts.length := by
          cases ts with
          | nil => exact Nat.le_refl _
          | cons value ts =>
            rw [afterEquals]
            split
            · exact Nat.le_succ _
            · exact Nat.le_refl _
        rw [bind_of_ok hpass, bind_of_ok (peek_before hleft)]
        generalize afterEquals ts = us at hleft hshort ⊢
        cases us with
        | nil => exact ih strings codes hleft (by rw [List.length_nil]; omega)
        | cons value us =>
          rw [List.length_cons] at hshort
          rw [List.head?_cons, valued]
          dsimp only
          cases hkind : value.kind with
          | string =>
            rw [if_pos rfl]
            dsimp only
            rw [bind_of_ok (advance_before hleft)]
            exact ih _ _ hleft.tail (by omega)
          | code =>
            rw [if_neg (by decide), if_pos rfl]
            dsimp only
            rw [bind_of_ok (advance_before hleft)]
            exact ih _ _ hleft.tail (by omega)
          | _ =>
            rw [if_neg (by decide), if_neg (by decide)]
            exact ih _ _ hleft (by rw [List.length_cons]; omega)
      · rw [if_pos hprop, attributes_of_other strings codes ts hend hprop]
        exact ih strings codes h.tail (by omega)

theorem attributes_before (h : IsLeft tokens stop ts) :
    Work.attributes (before tokens stop ts) =
        (.ok ((Element.attributes [] [] ts).1, (Element.attributes [] [] ts).2.1),
          before tokens stop (Element.attributes [] [] ts).2.2) ∧
      IsLeft tokens stop (Element.attributes [] [] ts).2.2 := by
  constructor
  · rw [Work.attributes, bind_of_ok (left_before h)]
    exact attributesIn_before _ [] [] h (Nat.lt_succ_self _)
  · rw [Element.attributes_eq]
    have hsplit : ts.takeWhile Element.inTag ++ ts.dropWhile Element.inTag = ts :=
      List.takeWhile_append_dropWhile
    rw [← hsplit] at h
    exact h.of_append

/-! ## 4. Tags -/

/-- **A start tag is read by steps as it is from a list.** -/
theorem startTag_before (h : IsLeft tokens stop ts) :
    Work.startTag (before tokens stop ts) =
      told tokens stop (Element.startTag (Element.endPosition tokens) ts) := by
  rw [Work.startTag, bind_of_ok (peek_before h)]
  cases ts with
  | nil => rfl
  | cons start ts =>
    rw [List.head?_cons, Element.startTag.eq_def]
    dsimp only
    by_cases hopen : start.kind = .opening
    · rw [if_neg (not_not_intro hopen), if_neg (not_not_intro hopen),
        bind_of_ok (advance_before h), bind_of_ok (peek_before h.tail)]
      cases ts with
      | nil => rfl
      | cons name ts =>
        rw [List.head?_cons]
        dsimp only
        by_cases hname : name.kind = .tagName
        · obtain ⟨hattributes, hleft⟩ := attributes_before h.tail.tail
          rw [if_neg (not_not_intro hname), if_neg (not_not_intro hname),
            bind_of_ok (advance_before h.tail), bind_of_ok hattributes]
          dsimp only
          -- what is left after the attributes has to start with one of the two ends of a tag
          generalize (Element.attributes [] [] ts).2.2 = us at hleft ⊢
          rw [bind_of_ok (check_before .emptyTagEnd hleft)]
          cases us with
          | nil =>
            rw [if_neg (by decide), bind_of_ok (check_before .tagEnd hleft)]
            rfl
          | cons last us =>
            obtain ⟨kind, lexeme, position⟩ := last
            cases kind with
            | emptyTagEnd =>
              rw [if_pos (by exact rfl), bind_of_ok (advance_before hleft)]
              rfl
            | tagEnd =>
              rw [if_neg (by exact Bool.false_ne_true), bind_of_ok (check_before .tagEnd hleft),
                if_neg (by exact Bool.false_ne_true), bind_of_ok (advance_before hleft)]
              rfl
            | _ =>
              rw [if_neg (by exact Bool.false_ne_true), bind_of_ok (check_before .tagEnd hleft)]
              rfl
        · rw [if_pos hname, if_pos hname]
          rfl
    · rw [if_pos hopen, if_pos hopen]
      rfl

/-- **A closing tag is passed over as it is in a list.**  Its three tokens are looked at from where
the first stands. -/
theorem closingTag_before (tag : Text) (h : IsLeft tokens stop (t :: ts)) :
    Work.closingTag tag t (before tokens stop (t :: ts)) =
      told tokens stop
        ((Element.closingTag tag t.position (t :: ts) ts).map fun rest => ((), rest)) := by
  have hpeek : Work.peek 1 (before tokens stop (t :: ts)) =
      (.ok ts.head?, before tokens stop (t :: ts)) := by
    rw [Work.peek, peek_at h.tail (by simp)]
  rw [Work.closingTag, bind_of_ok hpeek]
  cases ts with
  | nil => rfl
  | cons name ts =>
    rw [List.head?_cons, Element.closingTag.eq_def]
    dsimp only
    by_cases hname : name.kind = .tagName
    · rw [if_neg (not_not_intro hname), if_neg (not_not_intro hname)]
      by_cases hsame : name.lexeme = tag
      · rw [if_neg (not_not_intro hsame), if_neg (not_not_intro hsame),
          bind_of_ok (check_at .tagEnd h.tail.tail (by simp [Int.add_assoc]))]
        cases ts with
        | nil => rfl
        | cons last ts =>
          obtain ⟨kind, lexeme, position⟩ := last
          cases kind with
          | tagEnd =>
            rw [if_neg (by exact Bool.false_ne_true), skip_before]
            rfl
          | _ => rfl
      · rw [if_pos hsame, if_pos hsame]
        rfl
    · rw [if_pos hname, if_pos hname]
      rfl

/-! ## 5. Elements -/

/-- Reads an element, and its children in as many rounds as is said for the tokens after its start
tag. -/
def readIn (rounds : List Token → Nat) (last : Option Int) (ts : List Token) :
    Except Failure (Element × List Token) := do
  let (start, rest) ← Element.startTag last ts
  let (nodes, rest) ←
    if start.isEmpty then pure ([], rest) else Element.childNodes (rounds rest) last start rest
  return (start.element nodes, rest)

/-- A child that is an element is read as an element, and then the other children are. -/
theorem childNodes_of_opening (rounds : Nat) (last : Option Int) (start : StartTag)
    (ts : List Token) (h : t.kind = .opening) :
    Element.childNodes (rounds + 1) last start (t :: ts) = (do
      let (child, rest) ← readIn (fun _ => rounds) last (t :: ts)
      let (nodes, rest) ← Element.childNodes rounds last start rest
      return (child.toNode :: nodes, rest)) := by
  rw [Element.childNodes.eq_def]
  dsimp only
  rw [h, readIn]
  dsimp only
  cases Element.startTag last (t :: ts) with
  | error f => rfl
  | ok read =>
    obtain ⟨inner, rest⟩ := read
    dsimp only [bind, Except.bind]
    cases inner.isEmpty with
    | true => rfl
    | false =>
      rw [if_neg Bool.false_ne_true]
      cases Element.childNodes rounds last inner rest with
      | error f => rfl
      | ok read => rfl

theorem length_of_startTag {last : Option Int} {start : StartTag}
    (h : Element.startTag last ts = .ok (start, rest)) : rest.length + 3 ≤ ts.length := by
  obtain ⟨head, rfl, hhead⟩ := Element.startTag_eq_ok_iff.mp h
  cases hhead with
  | intro isEmpty => simp only [List.length_append, List.length_cons, List.length_nil]; omega

theorem IsLeft.of_startTag {last : Option Int} {start : StartTag} (hleft : IsLeft tokens stop ts)
    (h : Element.startTag last ts = .ok (start, rest)) : IsLeft tokens stop rest := by
  obtain ⟨head, rfl, -⟩ := Element.startTag_eq_ok_iff.mp h
  exact hleft.of_append

/-- What is left after an element is the end of what was there, and shorter. -/
theorem exists_append_of_readIn (rounds : List Token → Nat) {last : Option Int} {e : Element}
    (h : readIn rounds last ts = .ok (e, rest)) : ∃ head, ts = head ++ rest ∧ head ≠ [] := by
  rw [readIn, bind_eq_ok] at h
  obtain ⟨⟨start, ts₁⟩, hstart, h⟩ := h
  obtain ⟨head, rfl, hhead⟩ := Element.startTag_eq_ok_iff.mp hstart
  have hne : head ≠ [] := by
    cases hhead with
    | intro isEmpty => exact List.cons_ne_nil _ _
  dsimp only at h
  split at h
  · cases h
    exact ⟨head, rfl, hne⟩
  · rw [bind_eq_ok] at h
    obtain ⟨⟨nodes, ts₂⟩, hnodes, h⟩ := h
    cases h
    obtain ⟨inner, tail, rfl, -, -⟩ :=
      Element.spellsContent_of_childNodes _ start ts₁ nodes _ hnodes
    refine ⟨head ++ (inner ++ tail), by simp only [List.append_assoc], ?_⟩
    exact List.append_ne_nil_of_left_ne_nil hne _

/-- What is left after the head of the tokens is shorter than they are. -/
theorem length_lt_of_append {head : List Token} (h : ts = head ++ rest) (hne : head ≠ []) :
    rest.length < ts.length := by
  rw [h, List.length_append]
  have := List.length_pos_of_ne_nil hne
  omega

/-- An element is read by steps in `n` rounds as it is from a list. -/
def ReadsElement (tokens : List Token) (stop : Int) (n : Nat) : Prop :=
  ∀ (rounds : List Token → Nat) (ts : List Token), IsLeft tokens stop ts → ts.length + 1 ≤ n →
    (∀ rest : List Token, rest.length < ts.length → rest.length < rounds rest) →
    Work.elementIn n (before tokens stop ts) =
      told tokens stop (readIn rounds (Element.endPosition tokens) ts)

/-- The children of an element are read by steps in `n` rounds as they are from a list. -/
def ReadsChildren (tokens : List Token) (stop : Int) (n : Nat) : Prop :=
  ∀ (rounds : Nat) (start : StartTag) (ts : List Token), IsLeft tokens stop ts →
    ts.length + 2 ≤ n → ts.length < rounds →
    Work.childrenIn n start (before tokens stop ts) =
      told tokens stop (Element.childNodes rounds (Element.endPosition tokens) start ts)

/-- An element is read after its start tag as its children are. -/
theorem ReadsChildren.element {n : Nat} (ih : ReadsChildren tokens stop n) :
    ReadsElement tokens stop (n + 1) := by
  intro rounds ts h hlt henough
  rw [Work.elementIn, readIn]
  refine bind_told (startTag_before h) fun start rest hstart => ?_
  have hshort := length_of_startTag hstart
  dsimp only
  cases start.isEmpty with
  | true => rfl
  | false =>
    rw [if_neg Bool.false_ne_true, if_neg Bool.false_ne_true]
    exact bind_told (ih (rounds rest) start rest (h.of_startTag hstart) (by omega)
      (henough rest (by omega))) fun _ _ _ => rfl

/-- Children are read one at a time.  Each takes a token, so that as many rounds are left as the
others need. -/
theorem ReadsChildren.succ {n : Nat} (ihe : ReadsElement tokens stop n)
    (ihc : ReadsChildren tokens stop n) : ReadsChildren tokens stop (n + 1) := by
  intro rounds start ts h hlt henough
  -- the readers of lists count rounds of their own
  obtain ⟨rounds, rfl⟩ : ∃ m, rounds = m + 1 := ⟨rounds - 1, by omega⟩
  rw [Work.childrenIn, bind_of_ok (peek_before h)]
  cases ts with
  | nil => rfl
  | cons t ts =>
    rw [List.length_cons] at hlt henough
    rw [List.head?_cons]
    dsimp only
    cases hkind : t.kind with
    | opening =>
      rw [childNodes_of_opening rounds _ start ts hkind]
      have hchild := ihe (fun _ => rounds) (t :: ts) h (by rw [List.length_cons]; omega)
        fun rest hrest => by rw [List.length_cons] at hrest; omega
      refine bind_told hchild fun child rest hread => ?_
      obtain ⟨head, heq, hne⟩ := exists_append_of_readIn _ hread
      have hshort := length_lt_of_append heq hne
      rw [List.length_cons] at hshort
      rw [heq] at h
      exact bind_told (ihc rounds start rest h.of_append (by omega) (by omega)) fun _ _ _ => rfl
    | closing =>
      rw [Element.childNodes.eq_def]
      dsimp only
      rw [hkind]
      dsimp only
      rw [bind_apply, closingTag_before start.tag h]
      cases Element.closingTag start.tag t.position (t :: ts) ts with
      | error f => rfl
      | ok rest => rfl
    | text =>
      rw [Element.childNodes.eq_def]
      dsimp only
      rw [hkind, bind_of_ok (advance_before h)]
      exact bind_told (ihc rounds start ts h.tail (by omega) (by omega)) fun _ _ _ => rfl
    | code =>
      rw [Element.childNodes.eq_def]
      dsimp only
      rw [hkind, bind_of_ok (advance_before h)]
      exact bind_told (ihc rounds start ts h.tail (by omega) (by omega)) fun _ _ _ => rfl
    | _ =>
      rw [Element.childNodes.eq_def]
      dsimp only
      rw [hkind, bind_of_ok (advance_before h)]
      exact ihc rounds start ts h.tail (by omega) (by omega)

/-- **However many rounds there are, they are enough for as many tokens.** -/
theorem reads (tokens : List Token) (stop : Int) (n : Nat) :
    ReadsElement tokens stop n ∧ ReadsChildren tokens stop n := by
  induction n with
  | zero => exact ⟨fun _ _ _ hlt => by omega, fun _ _ _ _ hlt => by omega⟩
  | succ n ih => exact ⟨ih.2.element, .succ ih.1 ih.2⟩

theorem element_before (h : IsLeft tokens stop ts) :
    Work.element (before tokens stop ts) =
      told tokens stop (Element.read (Element.endPosition tokens) ts) := by
  rw [Work.element, bind_of_ok (left_before h)]
  exact (reads tokens stop (ts.length + 2)).1 (fun rest => rest.length + 1) ts h (by omega)
    fun rest _ => Nat.lt_succ_self _

theorem document_before (h : IsLeft tokens stop ts) :
    Work.document (before tokens stop ts) =
      told tokens stop (Element.readWhole (Element.endPosition tokens) ts) := by
  rw [Work.document, Element.readWhole]
  refine bind_told (element_before h) fun root rest hread => ?_
  obtain ⟨head, rfl, -⟩ := exists_append_of_readIn (fun rest => rest.length + 1) hread
  rw [bind_of_ok (peek_before h.of_append)]
  cases rest with
  | nil => rfl
  | cons extra rest => rfl

/-! ## 6. A whole reading -/

/-- Runs a reader of lists on the tokens from the place on. -/
def run {α : Type} (c : Cursor) (reader : List Token → Except Failure (α × List Token)) :
    Except Fault α × Cursor :=
  match c.remaining? with
  | none => (.error (.outOfRange c.position), c)
  | some ts => told c.tokens (c.position + ts.length) (reader ts)

theorem before_self (c : Cursor) (ts : List Token) :
    before c.tokens (c.position + ts.length) ts = c := by
  rw [before, Int.add_sub_cancel]

theorem isLeft_self {c : Cursor} (h : c.remaining? = some ts) :
    IsLeft c.tokens (c.position + ts.length) ts := by
  rw [IsLeft, before_self, h]

theorem peek_of_none {c : Cursor} (h : c.remaining? = none) :
    Work.peek 0 c = (.error (.outOfRange c.position), c) := by
  rw [Work.peek, peek, move, Int.add_zero, h]

theorem startTag_of_none {c : Cursor} (h : c.remaining? = none) :
    Work.startTag c = (.error (.outOfRange c.position), c) := by
  rw [Work.startTag, bind_apply, peek_of_none h]

theorem element_of_none {c : Cursor} (h : c.remaining? = none) :
    Work.element c = (.error (.outOfRange c.position), c) := by
  have hleft : Work.left c = (.ok 0, c) := by rw [Work.left, h]; rfl
  rw [Work.element, bind_of_ok hleft, Work.elementIn, bind_apply, startTag_of_none h]

/-- **An element is read by steps as it is from the list of the tokens that are left.** -/
theorem element_eq_run (c : Cursor) : c.element = c.run (Element.read c.endPosition) := by
  rw [element, run]
  cases h : c.remaining? with
  | none => exact element_of_none h
  | some ts =>
    have hread := element_before (isLeft_self h)
    rwa [before_self] at hread

/-- **A document is read by steps as it is from the list of the tokens that are left.** -/
theorem document_eq_run (c : Cursor) : c.document = c.run (Element.readWhole c.endPosition) := by
  rw [document, run]
  cases h : c.remaining? with
  | none => rw [Work.document, bind_apply, element_of_none h]
  | some ts =>
    have hread := document_before (isLeft_self h)
    rwa [before_self] at hread

/-- **No step asks for a token that is not there** when a list of tokens is read from its start:
its reading fails only for what the tokens are. -/
theorem document_eq_ofTokens (tokens : List Token) :
    (document ⟨tokens, 0⟩).1 = (Element.ofTokens tokens).mapError Fault.markup := by
  have hrun : run ⟨tokens, 0⟩ (Element.readWhole (Element.endPosition tokens)) =
      told tokens (0 + tokens.length) (Element.readWhole (Element.endPosition tokens) tokens) := rfl
  rw [document_eq_run, endPosition, hrun, Element.ofTokens]
  cases Element.readWhole (Element.endPosition tokens) tokens with
  | error f => rfl
  | ok read => rfl

end InlineMarkup.Cursor
