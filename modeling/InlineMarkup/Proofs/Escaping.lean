import InlineMarkup.Call.Escape
import InlineMarkup.Proofs.LiteralGrammar

/-!
# Text in literals

A text is put into a literal by substitutions that run one after the other, each over all that the
ones before it have left.  They come to one map on characters, and this hangs on their order alone:
none of them may find its character in what an earlier one has put in
(`foldl_substitute_singleton`).  The backslash is in all that is put in, so it has to be the first.

The map takes every character to itself, or to a backslash and a character that stands for it
(`escapedChar_cases`).  Whatever is to be known of an escaped text is read off there, by induction
on the text: no line is broken in it, no quote in it ends a literal, and it can be read back
(`escaped_readsBack`).
-/

namespace InlineMarkup.Call

open Literal

/-! ## 1. Substitutions one after the other -/

theorem substitute_append (c : Char) (replacement s t : Text) :
    substitute c replacement (s ++ t) = substitute c replacement s ++ substitute c replacement t :=
  List.flatMap_append

theorem substitute_of_notMem {c : Char} {t : Text} (h : c ∉ t) (replacement : Text) :
    substitute c replacement t = t := by
  have hsingle : ∀ d ∈ t, (if d = c then replacement else [d]) = [d] := by
    intro d hd
    rw [if_neg]
    rintro rfl
    exact h hd
  rw [substitute, List.flatMap_congr hsingle, List.flatMap_singleton']

theorem foldl_substitute_append (steps : List (Char × Text)) : ∀ s t : Text,
    steps.foldl (fun t s => substitute s.1 s.2 t) (s ++ t) =
      steps.foldl (fun t s => substitute s.1 s.2 t) s ++
        steps.foldl (fun t s => substitute s.1 s.2 t) t := by
  induction steps with
  | nil => exact fun s t => rfl
  | cons step steps ih =>
    intro s t
    simp only [List.foldl_cons, substitute_append, ih]

theorem foldl_substitute_of_notMem {steps : List (Char × Text)} {t : Text}
    (h : ∀ s ∈ steps, s.1 ∉ t) : steps.foldl (fun t s => substitute s.1 s.2 t) t = t := by
  induction steps with
  | nil => rfl
  | cons step steps ih =>
    rw [List.foldl_cons, substitute_of_notMem (h step List.mem_cons_self)]
    exact ih fun s hs => h s (List.mem_cons_of_mem _ hs)

/-- **Substitutions that leave alone what earlier ones put in replace a character once.** -/
theorem foldl_substitute_singleton {steps : List (Char × Text)}
    (h : steps.Pairwise fun s later => later.1 ∉ s.2) (c : Char) :
    steps.foldl (fun t s => substitute s.1 s.2 t) [c] = (steps.lookup c).getD [c] := by
  induction steps with
  | nil => rfl
  | cons step steps ih =>
    obtain ⟨hlater, hsteps⟩ := List.pairwise_cons.mp h
    rw [List.foldl_cons]
    by_cases hc : c = step.1
    · rw [hc, substitute, List.flatMap_singleton, if_pos rfl, List.lookup_cons_self]
      exact foldl_substitute_of_notMem hlater
    · rw [substitute, List.flatMap_singleton, if_neg hc, ih hsteps, List.lookup_cons,
        beq_false_of_ne hc]

/-! ## 2. One map on characters -/

/-- What stands for a character in a literal. -/
def escapedChar (c : Char) : Text :=
  if c = '\\' then ['\\', '\\']
  else if c = '"' then ['\\', '"']
  else if c = '\n' then ['\\', 'n']
  else if c = '\r' then ['\\', 'r']
  else if c = '\t' then ['\\', 't']
  else [c]

theorem escaped_singleton (c : Char) : escaped [c] = escapedChar c := by
  -- that the substitutions are in the right order is seen by looking at each pair of them
  rw [escaped, foldl_substitute_singleton (by decide), escapedChar]
  split_ifs with hbackslash hquote hfeed hreturn htab
  · rw [hbackslash]; rfl
  · rw [hquote]; rfl
  · rw [hfeed]; rfl
  · rw [hreturn]; rfl
  · rw [htab]; rfl
  · have hnone : substitutions.lookup c = none := by
      rw [List.lookup_eq_none_iff]
      simp [substitutions, hbackslash, hquote, hfeed, hreturn, htab]
    rw [hnone, Option.getD_none]

/-- **A text is escaped character by character.** -/
theorem escaped_eq_flatMap (s : Text) : escaped s = s.flatMap escapedChar := by
  induction s with
  | nil => rfl
  | cons c s ih =>
    calc escaped (c :: s) = escaped [c] ++ escaped s := foldl_substitute_append substitutions [c] s
      _ = escapedChar c ++ s.flatMap escapedChar := by rw [escaped_singleton, ih]
      _ = (c :: s).flatMap escapedChar := List.flatMap_cons.symm

/-- The character that a backslash and `c` stand for, if they stand for one. -/
def unescapedChar? (c : Char) : Option Char :=
  if c = '\\' then some '\\'
  else if c = '"' then some '"'
  else if c = 'n' then some '\n'
  else if c = 'r' then some '\r'
  else if c = 't' then some '\t'
  else none

/-- The character breaks a line or moves on in it. -/
def isLayout (c : Char) : Bool := c == '\n' || c == '\r' || c == '\t'

/-- **A character stands for itself, or is written as a backslash and a character for it.** -/
theorem escapedChar_cases (c : Char) :
    (∃ d, escapedChar c = ['\\', d] ∧ unescapedChar? d = some c ∧ isLayout d = false) ∨
      escapedChar c = [c] ∧ c ≠ '\\' ∧ c ≠ '"' ∧ isLayout c = false := by
  unfold escapedChar
  split_ifs with hbackslash hquote hfeed hreturn htab
  · exact Or.inl ⟨'\\', rfl, by rw [hbackslash]; rfl, rfl⟩
  · exact Or.inl ⟨'"', rfl, by rw [hquote]; rfl, rfl⟩
  · exact Or.inl ⟨'n', rfl, by rw [hfeed]; rfl, rfl⟩
  · exact Or.inl ⟨'r', rfl, by rw [hreturn]; rfl, rfl⟩
  · exact Or.inl ⟨'t', rfl, by rw [htab]; rfl, rfl⟩
  · exact Or.inr ⟨rfl, hbackslash, hquote, by simp [isLayout, hfeed, hreturn, htab]⟩

/-! ## 3. Reading back -/

/-- The text that an escaped text stands for, read from left to right; none if a backslash is
followed by something that it does not stand before. -/
def unescaped? : Text → Option Text
  | [] => some []
  | c :: t =>
    if c = '\\' then
      match t with
      | [] => none
      | d :: t => (unescapedChar? d).bind fun x => (unescaped? t).map (x :: ·)
    else (unescaped? t).map (c :: ·)

theorem unescaped?_cons {c : Char} (hc : c ≠ '\\') (t : Text) :
    unescaped? (c :: t) = (unescaped? t).map (c :: ·) := by
  cases t <;> simp only [unescaped?, if_neg hc]

/-- No line is broken in an escaped text. -/
theorem isLayout_of_mem_escaped {s : Text} {c : Char} (h : c ∈ escaped s) : isLayout c = false := by
  rw [escaped_eq_flatMap] at h
  obtain ⟨x, -, hc⟩ := List.mem_flatMap.mp h
  obtain ⟨d, heq, -, hd⟩ | ⟨heq, -, -, hx⟩ := escapedChar_cases x
  · rw [heq] at hc
    rcases List.mem_cons.mp hc with rfl | hc
    · rfl
    · rwa [List.mem_singleton.mp hc]
  · rw [heq] at hc
    rwa [List.mem_singleton.mp hc]

/-- An escaped text may stand between double quotes. -/
theorem quotedBody_escaped (s : Text) : QuotedBody '"' (escaped s) := by
  rw [escaped_eq_flatMap]
  induction s with
  | nil => exact .nil
  | cons c s ih =>
    rw [List.flatMap_cons]
    obtain ⟨d, heq, -, -⟩ | ⟨heq, hbackslash, hquote, -⟩ := escapedChar_cases c
    · rw [heq]
      exact .escape ih
    · rw [heq]
      exact .char hbackslash hquote ih

/-- **An escaped text is read back.** -/
theorem unescaped?_escaped (s : Text) : unescaped? (escaped s) = some s := by
  rw [escaped_eq_flatMap]
  induction s with
  | nil => rfl
  | cons c s ih =>
    rw [List.flatMap_cons]
    obtain ⟨d, heq, hd, -⟩ | ⟨heq, hbackslash, -, -⟩ := escapedChar_cases c
    · rw [heq, List.cons_append, List.cons_append, List.nil_append, unescaped?, if_pos rfl]
      simp [hd, ih]
    · rw [heq, List.singleton_append, unescaped?_cons hbackslash, ih, Option.map_some]

/-- **Text in a literal is kept whole, and the literal ends where the text does.**

The substitutions, one after the other, are one map on characters.  An escaped text has no line
break and no tab in it.  Between double quotes it is read as a literal up to the second quote,
whatever follows.  Read back from left to right, it is the text again. -/
theorem escaped_readsBack (s rest : Text) :
    escaped s = s.flatMap escapedChar ∧
      (∀ c ∈ escaped s, c ≠ '\n' ∧ c ≠ '\r' ∧ c ≠ '\t') ∧
      stringLength? ('"' :: (escaped s ++ '"' :: rest)) = some ((escaped s).length + 2) ∧
      unescaped? (escaped s) = some s := by
  refine ⟨escaped_eq_flatMap s, fun c hc => ?_, ?_, unescaped?_escaped s⟩
  · simpa [isLayout, and_assoc] using isLayout_of_mem_escaped hc
  · rw [stringLength?, (quotedBody_escaped s).stringEnd rfl, Option.some.injEq]
    omega

end InlineMarkup.Call
