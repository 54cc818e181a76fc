import Mathlib.Data.Nat.Find
import Mathlib.Logic.Function.Iterate
import InlineMarkup.Retry

/-!
# The course of an operation with retries

When one attempt is left its number is that of the last, after which the loop does not go on.  So it
never falls through, whatever the operation and the pauses do (`start_ne_fellThrough`).

An operation changes a state, and so does a pause, so what the calls come to is a sequence of
outcomes (`call`).  Of this sequence a course sees a beginning: it ends with the first outcome that
is not tried again, or with the last call that it is allowed (`Decides`).  There is one such call,
and where pauses are made the course is settled by its number: what was done, what it comes to, and
the state that it leaves (`run_of_decides`, `start_eq_call`).

What every single attempt does to the state, a course does (`run_spec`).
-/

namespace InlineMarkup.Retry

variable {σ δ ε α : Type}

/-! ## 1. One attempt -/

/-- The outcome is a fault of the system and not that a file is missing. -/
def IsTriedAgain (r : Retry σ δ ε α) (o : Except ε α) : Prop :=
  ∃ e, o = .error e ∧ r.isOfSystem e = true ∧ r.isMissing e = false

/-- The end of a loop whose last call came to this. -/
def Ending.ofOutcome : Except ε α → Ending ε α
  | .ok a => returned a
  | .error e => raised e

/-- The state that a call and the pause after it leave. -/
def next (r : Retry σ δ ε α) (s : σ) : σ := (r.sleep r.delay (r.operation s).2).2

/-- **What the loop does for one attempt**: it ends with the call, it is cut short by the pause, or
it goes on. -/
theorem run_succ (r : Retry σ δ ε α) (attempts left attempt : Nat) (s : σ) :
    ((attempt = attempts ∨ ¬r.IsTriedAgain (r.operation s).1) ∧
      r.run attempts (left + 1) attempt s =
        .final (.ofOutcome (r.operation s).1) (r.operation s).2) ∨
    (attempt ≠ attempts ∧ r.IsTriedAgain (r.operation s).1 ∧
      ∃ e, (r.operation s).1 = .error e ∧
        ((∃ e', (r.sleep r.delay (r.operation s).2).1 = .error e' ∧
            r.run attempts (left + 1) attempt s = .cutShort attempt e r.delay e' (r.next s)) ∨
          (r.sleep r.delay (r.operation s).2).1 = .ok () ∧
            r.run attempts (left + 1) attempt s =
              .after attempt e r.delay (r.run attempts left (attempt + 1) (r.next s)))) := by
  rw [run, next]
  generalize r.operation s = called
  obtain ⟨e | a, s₁⟩ := called
  · dsimp only
    split
    · rename_i hmissing
      refine Or.inl ⟨Or.inr ?_, rfl⟩
      rintro ⟨e', he', -, hthere⟩
      cases he'
      rw [hmissing] at hthere
      cases hthere
    · rename_i hthere
      split
      · rename_i hsystem
        split
        · rename_i hlast
          exact Or.inl ⟨Or.inl hlast, rfl⟩
        · rename_i hne
          refine Or.inr ⟨hne, ⟨e, rfl, hsystem, by simpa using hthere⟩, e, rfl, ?_⟩
          generalize r.sleep r.delay s₁ = slept
          obtain ⟨e' | done, s₂⟩ := slept
          · exact Or.inl ⟨e', rfl, rfl⟩
          · exact Or.inr ⟨rfl, rfl⟩
      · rename_i hother
        refine Or.inl ⟨Or.inr ?_, rfl⟩
        rintro ⟨e', he', hsystem, -⟩
        cases he'
        exact hother hsystem
  · refine Or.inl ⟨Or.inr ?_, rfl⟩
    rintro ⟨e, he, -⟩
    cases he

/-! ## 2. The numbers of attempts -/

theorem one_le_attempts (wanted : Int) : 1 ≤ attempts wanted := by
  rw [attempts]
  omega

/-- All attempts are the first and those after it. -/
theorem start_eq (r : Retry σ δ ε α) (wanted : Int) (s : σ) :
    ∃ more, attempts wanted = 1 + more ∧ r.start wanted s = r.run (1 + more) (more + 1) 1 s := by
  obtain ⟨more, hmore⟩ := Nat.exists_eq_add_of_le (one_le_attempts wanted)
  refine ⟨more, hmore, ?_⟩
  rw [start, hmore]
  exact congrArg (fun left => r.run (1 + more) left 1 s) (Nat.add_comm 1 more)

theorem ofOutcome_ne_fellThrough (o : Except ε α) : Ending.ofOutcome o ≠ .fellThrough := by
  cases o with
  | ok a => exact nofun
  | error e => exact nofun

/-- The loop does not fall through if the last attempt that is left is the last of all. -/
theorem run_ne_fellThrough (r : Retry σ δ ε α) : ∀ (more i : Nat) (s : σ),
    (r.run (i + more) (more + 1) i s).ending ≠ .fellThrough := by
  intro more
  induction more with
  | zero =>
    intro i s
    rcases r.run_succ (i + 0) 0 i s with ⟨-, hrun⟩ | ⟨hne, -⟩
    · rw [hrun]
      exact ofOutcome_ne_fellThrough _
    · exact absurd (Nat.add_zero i).symm hne
  | succ more ih =>
    intro i s
    rw [show i + (more + 1) = i + 1 + more by omega]
    rcases r.run_succ (i + 1 + more) (more + 1) i s with
      ⟨-, hrun⟩ | ⟨-, -, e, -, ⟨e', -, hrun⟩ | ⟨-, hrun⟩⟩
    · rw [hrun]
      exact ofOutcome_ne_fellThrough _
    · rw [hrun]
      exact nofun
    · rw [hrun]
      exact ih (i + 1) (r.next s)

/-- **The loop never falls through**, whatever is tried and however often. -/
theorem start_ne_fellThrough (r : Retry σ δ ε α) (wanted : Int) (s : σ) :
    (r.start wanted s).ending ≠ .fellThrough := by
  obtain ⟨more, -, hstart⟩ := r.start_eq wanted s
  rw [hstart]
  exact run_ne_fellThrough r more 1 s

/-! ## 3. What one attempt does and what all of them do -/

/-- The value of a loop that has returned one. -/
def Ending.value? : Ending ε α → Option α
  | returned a => some a
  | _ => none

theorem Ending.toOption_result (ending : Ending ε α) (otherwise : ε) :
    (ending.result otherwise).toOption = ending.value? := by
  cases ending <;> rfl

section Spec

variable {r : Retry σ δ ε α} {Q : σ → Prop}

/-- What holds of one attempt holds of all of them together, if failed attempts can be put before
others and a pause leaves the state alone. -/
theorem run_spec {R : Except ε α → σ → σ → Prop}
    (hcall : ∀ s, Q s → Q (r.operation s).2 ∧ R (r.operation s).1 s (r.operation s).2)
    (hsleep : ∀ s, (r.sleep r.delay s).2 = s)
    (htrans : ∀ e o s s₁ s₂, R (.error e) s s₁ → R o s₁ s₂ → R o s s₂) (attempts : Nat) :
    ∀ (left attempt : Nat) (s : σ), Q s → (r.run attempts left attempt s).ending ≠ .fellThrough →
      ∃ o, R o s (r.run attempts left attempt s).state ∧
        (r.run attempts left attempt s).ending.value? = o.toOption
  | 0, _, _, _, hends => absurd rfl hends
  | left + 1, attempt, s, hs, hends => by
    obtain ⟨hnext, hfirst⟩ := hcall s hs
    have hsame : r.next s = (r.operation s).2 := hsleep _
    rcases r.run_succ attempts left attempt s with
      ⟨-, hrun⟩ | ⟨-, -, e, he, ⟨e', -, hrun⟩ | ⟨-, hrun⟩⟩
    · rw [hrun]
      refine ⟨_, hfirst, ?_⟩
      cases (r.operation s).1 <;> rfl
    · rw [hrun, hsame]
      refine ⟨_, hfirst, ?_⟩
      rw [he]
      rfl
    · rw [hrun, hsame] at hends ⊢
      rw [he] at hfirst
      obtain ⟨o, ho, hvalue⟩ := run_spec hcall hsleep htrans attempts left (attempt + 1) _ hnext hends
      exact ⟨o, htrans e o _ _ _ hfirst ho, hvalue⟩

theorem start_spec {R : Except ε α → σ → σ → Prop}
    (hcall : ∀ s, Q s → Q (r.operation s).2 ∧ R (r.operation s).1 s (r.operation s).2)
    (hsleep : ∀ s, (r.sleep r.delay s).2 = s)
    (htrans : ∀ e o s s₁ s₂, R (.error e) s s₁ → R o s₁ s₂ → R o s s₂) (wanted : Int) {s : σ}
    (hs : Q s) : ∃ o, R o s (r.start wanted s).state ∧
      (r.start wanted s).ending.value? = o.toOption :=
  run_spec hcall hsleep htrans _ _ _ s hs (start_ne_fellThrough r wanted s)

/-- What holds of every call that a course may end with, and of every pause that may cut it short,
holds of its end. -/
theorem run_ending {P : Ending ε α → Prop}
    (hcall : ∀ s, Q s → Q (r.next s) ∧ P (.ofOutcome (r.operation s).1))
    (hpause : ∀ s, Q s → r.IsTriedAgain (r.operation s).1 →
      ∀ e, (r.sleep r.delay (r.operation s).2).1 = .error e → P (.raised e)) (attempts : Nat) :
    ∀ (left attempt : Nat) (s : σ), Q s → (r.run attempts left attempt s).ending ≠ .fellThrough →
      P (r.run attempts left attempt s).ending
  | 0, _, _, _, hends => absurd rfl hends
  | left + 1, attempt, s, hs, hends => by
    obtain ⟨hnext, hfirst⟩ := hcall s hs
    rcases r.run_succ attempts left attempt s with
      ⟨-, hrun⟩ | ⟨-, hagain, e, -, ⟨e', hsleep, hrun⟩ | ⟨-, hrun⟩⟩
    · rw [hrun]
      exact hfirst
    · rw [hrun]
      exact hpause s hs hagain e' hsleep
    · rw [hrun] at hends ⊢
      exact run_ending hcall hpause attempts left (attempt + 1) _ hnext hends

theorem start_ending {P : Ending ε α → Prop}
    (hcall : ∀ s, Q s → Q (r.next s) ∧ P (.ofOutcome (r.operation s).1))
    (hpause : ∀ s, Q s → r.IsTriedAgain (r.operation s).1 →
      ∀ e, (r.sleep r.delay (r.operation s).2).1 = .error e → P (.raised e)) (wanted : Int) {s : σ}
    (hs : Q s) : P (r.start wanted s).ending :=
  run_ending hcall hpause _ _ _ s hs (start_ne_fellThrough r wanted s)

end Spec

/-- A course ends with its first call, if there is no other or the outcome is not tried again. -/
theorem start_of_first {r : Retry σ δ ε α} (wanted : Int) {s : σ}
    (h : attempts wanted = 1 ∨ ¬r.IsTriedAgain (r.operation s).1) :
    r.start wanted s = .final (.ofOutcome (r.operation s).1) (r.operation s).2 := by
  obtain ⟨more, hmore, hstart⟩ := r.start_eq wanted s
  rw [hmore] at h
  rw [hstart]
  rcases r.run_succ (1 + more) more 1 s with ⟨-, hrun⟩ | ⟨hne, hagain, -⟩
  · exact hrun
  · exact absurd hagain (h.resolve_left (Ne.symm hne))

/-- A course is cut short by the first pause, if there is to be another attempt and the pause is
refused. -/
theorem start_of_refused {r : Retry σ δ ε α} {wanted : Int} {s : σ} {e' : ε}
    (hmore : 1 < attempts wanted) (hagain : r.IsTriedAgain (r.operation s).1)
    (hsleep : (r.sleep r.delay (r.operation s).2).1 = .error e') :
    (r.start wanted s).ending = .raised e' := by
  obtain ⟨more, hattempts, hstart⟩ := r.start_eq wanted s
  rw [hattempts] at hmore
  rw [hstart]
  rcases r.run_succ (1 + more) more 1 s with
    ⟨hlast, -⟩ | ⟨-, -, e, -, ⟨e'', hrefused, hrun⟩ | ⟨hdone, -⟩⟩
  · exact absurd (hlast.resolve_right fun hnot => hnot hagain) (Nat.ne_of_lt hmore)
  · rw [hrun, Retried.cutShort, Except.error.inj (hrefused.symm.trans hsleep)]
  · rw [hdone] at hsleep
    cases hsleep

/-! ## 4. Calls and their outcomes -/

/-- What call number `i` comes to, and the state that it leaves; the first call has number 1. -/
def call (r : Retry σ δ ε α) (s : σ) (i : Nat) : Except ε α × σ := r.operation (r.next^[i - 1] s)

/-- The second call from a state is the first one from the state after the first call and its
pause. -/
theorem call_add_two (r : Retry σ δ ε α) (s : σ) (i : Nat) :
    r.call s (i + 2) = r.call (r.next s) (i + 1) := rfl

/-! ## 5. The call that decides -/

/-- Of `n` calls, number `k` decides: all calls before it are tried again, and it is not, or it is
the last. -/
structure Decides (again : Nat → Prop) (n k : Nat) : Prop where
  pos : 1 ≤ k
  le : k ≤ n
  before : ∀ i, 1 ≤ i → i < k → again i
  stops : k < n → ¬again k

/-- At most one call decides. -/
theorem Decides.unique {again : Nat → Prop} {n j k : Nat} (hj : Decides again n j)
    (hk : Decides again n k) : j = k := by
  rcases Nat.lt_trichotomy j k with hlt | heq | hlt
  · exact absurd (hk.before j hj.pos hlt) (hj.stops (Nat.lt_of_lt_of_le hlt hk.le))
  · exact heq
  · exact absurd (hj.before k hk.pos hlt) (hk.stops (Nat.lt_of_lt_of_le hlt hj.le))

/-- If there is a call, one decides. -/
theorem exists_decides (again : Nat → Prop) {n : Nat} (hn : 1 ≤ n) : ∃ k, Decides again n k := by
  classical
  by_cases h : ∃ k, 1 ≤ k ∧ k < n ∧ ¬again k
  · obtain ⟨hpos, hlt, hstops⟩ := Nat.find_spec h
    refine ⟨Nat.find h, hpos, Nat.le_of_lt hlt, fun i hi hik => ?_, fun _ => hstops⟩
    by_contra hagain
    exact Nat.find_min h hik ⟨hi, Nat.lt_trans hik hlt, hagain⟩
  · refine ⟨n, hn, Nat.le_refl n, fun i hi hin => ?_, fun hnn => absurd hnn (Nat.lt_irrefl n)⟩
    by_contra hagain
    exact h ⟨i, hi, hin, hagain⟩

/-- A first call that is not tried again decides. -/
theorem Decides.eq_one {again : Nat → Prop} {n k : Nat} (h : Decides again n k)
    (hfirst : ¬again 1) : k = 1 := by
  by_contra hne
  exact hfirst (h.before 1 (Nat.le_refl 1) (Nat.lt_of_le_of_ne h.pos (Ne.symm hne)))

/-- After a first call that is tried again one of the later calls decides, counted from there. -/
theorem Decides.tail {again later : Nat → Prop} {n k : Nat} (h : Decides again (n + 2) k)
    (hfirst : again 1) (hlater : ∀ i, later (i + 1) ↔ again (i + 2)) :
    ∃ j, k = j + 2 ∧ Decides later (n + 1) (j + 1) := by
  have hne : k ≠ 1 := by
    rintro rfl
    exact h.stops (by omega) hfirst
  obtain ⟨j, rfl⟩ : ∃ j, k = j + 2 := ⟨k - 2, by have := h.pos; omega⟩
  have hle := h.le
  refine ⟨j, rfl, by omega, by omega, fun i hi hij => ?_, fun hj hagain => ?_⟩
  · obtain ⟨i, rfl⟩ := Nat.exists_eq_add_of_le' hi
    exact (hlater i).mpr (h.before (i + 2) (by omega) (by omega))
  · exact h.stops (by omega) ((hlater j).mp hagain)

/-! ## 6. The course -/

/-- What a course does that ends with call number `k`. -/
def traceTo (delay : δ) (k : Nat) : List (Action δ) :=
  .call :: (List.replicate (k - 1) [.sleep delay, .call]).flatten

/-- The course ends with call number `k`. -/
structure EndsWith (r : Retry σ δ ε α) (s : σ) (k : Nat) (course : Retried σ δ ε α) : Prop where
  trace : course.trace = traceTo r.delay k
  ending : course.ending = .ofOutcome (r.call s k).1
  state : course.state = (r.call s k).2

/-- A course that goes on after a first call ends as it goes on. -/
theorem EndsWith.after {r : Retry σ δ ε α} {s : σ} {j : Nat} {course : Retried σ δ ε α}
    (h : r.EndsWith (r.next s) (j + 1) course) (attempt : Nat) (e : ε) :
    r.EndsWith s (j + 2) (.after attempt e r.delay course) where
  trace := by
    rw [Retried.after, h.trace]
    rfl
  ending := by rw [call_add_two, ← h.ending, Retried.after]
  state := by rw [call_add_two, ← h.state, Retried.after]

/-- **A course is settled by the call that decides.** -/
theorem run_of_decides {r : Retry σ δ ε α} (hsleep : ∀ s, (r.sleep r.delay s).1 = .ok ()) :
    ∀ {more i : Nat} {s : σ} {k : Nat},
      Decides (fun i => r.IsTriedAgain (r.call s i).1) (more + 1) k →
      r.EndsWith s k (r.run (i + more) (more + 1) i s) := by
  intro more
  induction more with
  | zero =>
    intro i s k h
    obtain rfl : k = 1 := Nat.le_antisymm h.le h.pos
    rcases r.run_succ (i + 0) 0 i s with ⟨-, hrun⟩ | ⟨hne, -⟩
    · rw [hrun]
      exact ⟨rfl, rfl, rfl⟩
    · exact absurd (Nat.add_zero i).symm hne
  | succ more ih =>
    intro i s k h
    rw [show i + (more + 1) = i + 1 + more by omega]
    rcases r.run_succ (i + 1 + more) (more + 1) i s with
      ⟨hlast, hrun⟩ | ⟨-, hagain, e, -, ⟨e', hrefused, -⟩ | ⟨-, hrun⟩⟩
    · obtain rfl := h.eq_one (hlast.resolve_left (by omega))
      rw [hrun]
      exact ⟨rfl, rfl, rfl⟩
    · rw [hsleep] at hrefused
      cases hrefused
    · obtain ⟨j, rfl, hrest⟩ : ∃ j, k = j + 2 ∧
          Decides (fun i => r.IsTriedAgain (r.call (r.next s) i).1) (more + 1) (j + 1) :=
        h.tail hagain fun i => by rw [call_add_two]
      rw [hrun]
      exact (ih hrest).after i e

theorem start_of_decides {r : Retry σ δ ε α} (hsleep : ∀ s, (r.sleep r.delay s).1 = .ok ())
    {wanted : Int} {s : σ} {k : Nat}
    (h : Decides (fun i => r.IsTriedAgain (r.call s i).1) (attempts wanted) k) :
    r.EndsWith s k (r.start wanted s) := by
  obtain ⟨more, hmore, hstart⟩ := r.start_eq wanted s
  rw [hmore, Nat.add_comm] at h
  rw [hstart]
  exact run_of_decides hsleep h

/-- **The trace of an operation with retries.**

Whatever number of attempts is wanted and whatever the calls come to, exactly one call decides: the
first, among as many as are wanted and at least one, that does not fail with a fault of the system
other than a missing file; and if there is none, the last.  What is done is a call and then, once
for each call before that one, a pause of the given length and a call; so there is no pause after
the last call.  What that call came to, be it a result or a fault, is what all comes to.  The loop
does not fall through, and would not if pauses could be refused. -/
theorem start_eq_call (operation : σ → Except ε α × σ) (isMissing isOfSystem : ε → Bool) (delay : δ)
    (pause : δ → σ → σ) (retries : Int) (s : σ) :
    let r : Retry σ δ ε α :=
      ⟨operation, isMissing, isOfSystem, delay, fun d s => (.ok (), pause d s)⟩
    let again := fun i => r.IsTriedAgain (r.call s i).1
    (∃ k, Decides again (max 1 retries).toNat k ∧
      (∀ j, Decides again (max 1 retries).toNat j → j = k) ∧
      (r.start retries s).trace = .call :: (List.replicate (k - 1) [.sleep delay, .call]).flatten ∧
      (r.start retries s).ending = .ofOutcome (r.call s k).1 ∧
      (r.start retries s).state = (r.call s k).2) ∧
    ∀ sleep, (start { r with sleep := sleep } retries s).ending ≠ .fellThrough := by
  intro r again
  refine ⟨?_, fun sleep => start_ne_fellThrough _ retries s⟩
  obtain ⟨k, hk⟩ := exists_decides again (one_le_attempts retries)
  have hcourse := start_of_decides (r := r) (fun _ => rfl) hk
  exact ⟨k, hk, fun j hj => hj.unique hk, hcourse.trace, hcourse.ending, hcourse.state⟩

end InlineMarkup.Retry
