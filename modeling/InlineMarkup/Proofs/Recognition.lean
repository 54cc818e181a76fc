import InlineMarkup.Proofs.LiteralGrammar
import InlineMarkup.Proofs.Lexemes

/-!
# The readers recognize their grammars

`stringAt` and `codeAt` are started at an offset of a text, at a quote and at an opening brace.
They return an offset exactly when what stands between the two offsets is a literal, or a block, of
the grammar; there is at most one such offset, and it lies past the start and not past the end of
the text.  Where there is none they fail, with an error at the offset where they were started
(`readers_recognize`).

What the readers do at the head of a text is known from the grammar (`stringEnd_eq_some_iff`,
`codeEnd_eq_some_iff`).  It is first turned into a statement about the lengths they return:
`n` characters are taken exactly when the first `n` characters are in the grammar
(`stringLength?_eq_some_iff`, `codeLength?_eq_some_iff`).  From there on nothing depends on which
of the two readers it is (`recognizes_readAt`).
-/

namespace InlineMarkup.Literal

/-! ## 1. What it is to recognize a grammar -/

/-- A complete literal between two quotes `q`. -/
def IsLiteralOf (q : Char) (t : Text) : Prop := ∃ u, t = q :: (u ++ [q]) ∧ QuotedBody q u

/-- `stop` is an offset of `t`, and what stands between `start` and `stop` is in `G`. -/
structure Derives (G : Text → Prop) (t : Text) (start stop : Int) : Prop where
  nonneg : 0 ≤ stop
  within : stop ≤ t.length
  derives : G (t.slice start stop)

/-- A reading at offset `start` of `t` returns the end of what is in `G` there, and when there is no
such end it fails with an error of the token stage, at `start`. -/
structure Recognizes (G : Text → Prop) (t : Text) (start : Nat)
    (reading : Option (Except MarkupError Int)) : Prop where
  returns : ∀ stop, reading = some (.ok stop) ↔ Derives G t start stop
  unique : ∀ stop stop', Derives G t start stop → Derives G t start stop' → stop = stop'
  bounds : ∀ stop, Derives G t start stop → start < stop ∧ stop ≤ t.length
  fails : (∃ e : MarkupError, reading = some (.error e) ∧ e.fault.stage = .token ∧
    e.position = some (start : Int)) ↔ ¬ ∃ stop, Derives G t start stop

/-! ## 2. Lengths at the head of a text -/

theorem not_isLiteralOf_nil (q : Char) : ¬ IsLiteralOf q [] := by
  rintro ⟨u, h, -⟩
  cases h

theorem not_isBlock_nil : ¬ IsBlock [] := by
  rintro ⟨u, h, -⟩
  cases h

/-- What a closing character cuts off a text, told by where the text goes on and by how long the
whole is.  `B` says what may stand between the two characters. -/
theorem exists_enclosed_iff {B : Text → Prop} {a b : Char} {t : Text} {n : Nat} :
    (∃ u v, t = u ++ b :: v ∧ B u ∧ n = 1 + u.length + 1) ↔
      n ≤ (a :: t).length ∧ ∃ u, (a :: t).take n = a :: (u ++ [b]) ∧ B u := by
  constructor
  · rintro ⟨u, v, rfl, hu, rfl⟩
    refine ⟨by simp only [List.length_cons, List.length_append]; omega, u, ?_, hu⟩
    rw [Nat.add_assoc, Nat.add_comm, List.take_succ_cons, Lexer.take_through]
  · rintro ⟨hn, u, htake, hu⟩
    have hsplit := List.take_append_drop n (a :: t)
    have hlen := congrArg List.length htake
    rw [htake] at hsplit
    simp only [List.length_take, List.length_cons, List.length_append, List.length_nil] at hlen hn
    exact ⟨u, (a :: t).drop n, by simpa using hsplit.symm, hu, by omega⟩

/-- **The literal reader takes `n` characters exactly when these are a literal.** -/
theorem stringLength?_eq_some_iff {q : Char} (hq : isQuote q = true) {t : Text} {n : Nat} :
    stringLength? (q :: t) = some n ↔
      n ≤ (q :: t).length ∧ IsLiteralOf q ((q :: t).take n) := by
  rw [stringLength?, stringEnd_eq_some_iff hq]
  exact exists_enclosed_iff

/-- **The block reader takes `n` characters exactly when these are a block.** -/
theorem codeLength?_eq_some_iff {t : Text} {n : Nat} :
    codeLength? ('{' :: t) = some n ↔
      n ≤ ('{' :: t).length ∧ IsBlock (('{' :: t).take n) := by
  rw [codeLength?_block, codeEnd_eq_some_iff]
  exact exists_enclosed_iff

/-! ## 3. Readers at an offset -/

section Reader

variable {G : Text → Prop} {length? : Text → Option Nat} {fault : Text → MarkupFault}
variable {t : Text} {start : Nat}

theorem cutPoint_eq_toNat {i : Int} (hnonneg : 0 ≤ i) (hwithin : i ≤ t.length) :
    t.cutPoint i = i.toNat := by
  rw [Text.cutPoint, if_neg (by omega)]
  omega

/-- Reading at an offset of a text is reading what follows the offset. -/
theorem readAt_natCast (hstart : start ≤ t.length) : readAt length? fault t start =
    some ((length? (t.drop start)).elim (.error ⟨fault (t.drop start), some (start : Int)⟩)
      fun n => .ok (start + n)) := by
  have hafter : t.after start = t.drop start := by
    rw [Text.after, cutPoint_eq_toNat (by omega) (by omega), Int.toNat_natCast]
  rw [readAt, Text.onward?, if_pos (by omega), Int.toNat_natCast, hafter, Option.map_some]
  cases length? (t.drop start) <;> rfl

/-- The characters between two offsets of a text. -/
theorem slice_eq_take_drop (hstart : start ≤ t.length) {stop : Int} (hnonneg : 0 ≤ stop)
    (hwithin : stop ≤ t.length) :
    t.slice start stop = (t.drop start).take (stop.toNat - start) := by
  rw [Text.slice, Text.before, cutPoint_eq_toNat hnonneg hwithin,
    cutPoint_eq_toNat (by omega) (by omega), Int.toNat_natCast, List.drop_take]

/-- The ends that the grammar allows, by the lengths that a reader takes. -/
theorem derives_iff (hstart : start ≤ t.length) (hempty : ¬ G [])
    (hlength : ∀ n, length? (t.drop start) = some n ↔
      n ≤ (t.drop start).length ∧ G ((t.drop start).take n)) {stop : Int} :
    Derives G t start stop ↔ ∃ n : Nat, stop = start + n ∧ length? (t.drop start) = some n := by
  constructor
  · rintro ⟨hnonneg, hwithin, hG⟩
    rw [slice_eq_take_drop hstart hnonneg hwithin] at hG
    -- an end before the start leaves nothing between the two
    have hlt : start < stop.toNat := by
      by_contra hle
      rw [Nat.sub_eq_zero_of_le (by omega), List.take_zero] at hG
      exact hempty hG
    refine ⟨stop.toNat - start, by omega, (hlength _).mpr ⟨?_, hG⟩⟩
    rw [List.length_drop]
    omega
  · rintro ⟨n, rfl, hn⟩
    obtain ⟨hle, hG⟩ := (hlength n).mp hn
    rw [List.length_drop] at hle
    refine ⟨by omega, by omega, ?_⟩
    rw [slice_eq_take_drop hstart (by omega) (by omega)]
    rwa [show ((start : Int) + n).toNat - start = n by omega]

/-- **A reader that takes just what the grammar allows recognizes the grammar at every offset.** -/
theorem recognizes_readAt (hstart : start ≤ t.length) (hempty : ¬ G [])
    (hstage : ∀ u, (fault u).stage = .token)
    (hlength : ∀ n, length? (t.drop start) = some n ↔
      n ≤ (t.drop start).length ∧ G ((t.drop start).take n)) :
    Recognizes G t start (readAt length? fault t start) := by
  have hderives : ∀ stop, Derives G t start stop ↔
      ∃ n : Nat, stop = start + n ∧ length? (t.drop start) = some n :=
    fun stop => derives_iff hstart hempty hlength
  refine ⟨fun stop => ?_, ?_, ?_, ?_⟩
  · rw [hderives, readAt_natCast hstart]
    cases length? (t.drop start) <;> simp [eq_comm]
  · intro stop stop' h h'
    obtain ⟨n, rfl, hn⟩ := (hderives stop).mp h
    obtain ⟨n', rfl, hn'⟩ := (hderives stop').mp h'
    rw [hn, Option.some.injEq] at hn'
    rw [hn']
  · intro stop h
    refine ⟨?_, h.within⟩
    obtain ⟨n, rfl, hn⟩ := (hderives stop).mp h
    have hpos : n ≠ 0 := by
      rintro rfl
      exact hempty ((hlength 0).mp hn).2
    omega
  · simp only [hderives, readAt_natCast hstart]
    cases length? (t.drop start) <;> simp [hstage]

end Reader

/-! ## 4. The two readers -/

/-- **The readers recognize exactly their grammars.**

At a quote the literal reader, and at an opening brace the block reader, returns `stop` exactly when
the characters from `start` to `stop` are a literal with that quote, or a block.  There is at most
one such `stop`, past `start` and not past the end of the text, and where there is none the reader
fails with an error at `start`. -/
theorem readers_recognize (t : Text) (start : Nat) :
    (∀ q, isQuote q = true → t[start]? = some q →
        Recognizes (IsLiteralOf q) t start (stringAt t start)) ∧
      (t[start]? = some '{' → Recognizes IsBlock t start (codeAt t start)) := by
  have hcons : ∀ {c}, t[start]? = some c →
      start < t.length ∧ t.drop start = c :: t.drop (start + 1) := by
    intro c hc
    obtain ⟨hlt, hget⟩ := List.getElem?_eq_some_iff.mp hc
    exact ⟨hlt, by rw [List.drop_eq_getElem_cons hlt, hget]⟩
  constructor
  · intro q hq hc
    obtain ⟨hlt, hdrop⟩ := hcons hc
    rw [stringAt, if_neg (by omega)]
    refine recognizes_readAt (by omega) (not_isLiteralOf_nil q) (fun _ => rfl) fun n => ?_
    rw [hdrop]
    exact stringLength?_eq_some_iff hq
  · intro hc
    obtain ⟨hlt, hdrop⟩ := hcons hc
    refine recognizes_readAt (by omega) not_isBlock_nil (fun _ => rfl) fun n => ?_
    rw [hdrop]
    exact codeLength?_eq_some_iff

/-- A block with a quoted brace and a block in it, and a literal that never ends: its last
character is a backslash, with nothing left to take. -/
theorem readers_recognize_nested :
    Derives IsBlock ['a', '{', '\'', '}', '\\', '\'', '\'', '{', '}', '}', 'b'] 1 10 ∧
      ¬ ∃ stop, Derives (IsLiteralOf '"') ['"', 'a', '\\'] 0 stop :=
  ⟨(((readers_recognize _ 1).2 rfl).returns 10).mp rfl,
    ((readers_recognize _ 0).1 '"' rfl rfl).fails.mp ⟨_, rfl, rfl, rfl⟩⟩

end InlineMarkup.Literal
