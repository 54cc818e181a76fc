import InlineMarkup.Proofs.Discovery
import InlineMarkup.Watch

/-!
# The trace of a watch

What a watch does is a block of events for each batch, in the order of the batches.  A block is
settled by its batch, by which paths exist, and, if a cycle is run in it, by what that cycle comes
to (`block`); it is settled by nothing else.  So a cycle that fails is told in its own block, and no
later block shows a sign of it, except that the outcomes of cycles are used up one by one
(`loop_eq_blocks`).

To say so, the loop is put into a world that follows a script (`scripted`): a path is there or not
for good, and the cycle with number `n` comes to the outcome with number `n`, be it a result or a
failure.  The state of this world is nothing but the calls that it has received, so the state at the
end of a loop tells for which paths cycles were run, whatever the events say.
-/

namespace InlineMarkup.Watch

variable {ε β : Type}

/-! ## 1. Sources that are there and sources that are gone -/

/-- The sources of a batch that are there, in order. -/
def Scope.present (scope : Scope) (isThere : Path → Bool) (changed : List Path) : List Path :=
  (scope.sources changed).filter isThere

/-- The sources of a batch that are gone, in order. -/
def Scope.gone (scope : Scope) (isThere : Path → Bool) (changed : List Path) : List Path :=
  (scope.sources changed).filter fun p => !isThere p

/-- The sources of a batch are those of its paths that the scope contains, in order and each
once. -/
theorem Scope.sources_spec (scope : Scope) (changed : List Path) :
    (scope.sources changed).Nodup ∧
      (scope.sources changed).Pairwise (fun a b => a.key ≤ b.key) ∧
      ∀ p, p ∈ scope.sources changed ↔ p ∈ changed ∧ scope.contains p = true := by
  refine ⟨Path.nodup_sorted _, Path.pairwise_sorted _, fun p => ?_⟩
  rw [Scope.sources, Path.mem_sorted, List.mem_filter]

theorem partitionGone_eq_filter (isThere : Path → Bool) : ∀ sources : List Path,
    partitionGone (ε := ε) (fun p => .ok (isThere p)) sources =
      .ok (sources.filter fun p => !isThere p, sources.filter isThere)
  | [] => rfl
  | p :: rest => by
    rw [partitionGone, partitionGone_eq_filter isThere rest]
    cases hp : isThere p with
    | true => simp [hp, bind, Except.bind, pure, Except.pure]
    | false => simp [hp, bind, Except.bind, pure, Except.pure]

/-! ## 2. A world that follows a script -/

/-- What a cycle comes to: a result or a failure, and what was noted on the way. -/
abbrev Outcome (ε : Type) := Except ε Cycle × List LogRecord

/-- A world in which a path is there or not for good, and the cycles come to the outcomes of a
script, one after the other.  Its state is the list of the calls so far: the paths of each. -/
def scripted (paths : β → List Path) (isThere : Path → Bool) (script : Nat → Outcome ε) :
    World Id (List (List Path)) ε β where
  arrive batch calls := (paths batch, calls)
  exists? _ p := .ok (isThere p)
  runCycle changed calls := ((script calls.length).1, (script calls.length).2, calls ++ [changed])

/-- The events of a cycle for these paths, with their names in the message before it. -/
def cycleEvents (present : List Path) (outcome : Outcome ε) : List (Event ε) :=
  [.notice ("[watch] change detected: " ++ Text.joinWith ", " (present.map Path.name)),
      .cycle present, .noted outcome.2] ++
    match outcome.1 with
    | .ok c => [.notice ("[watch] done (" ++ c.duration.shown ++ ")"), .result c]
    | .error e => [.failed e]

/-- The events of a batch: its sources that are gone are told by their names, and if any are there,
a cycle is run for them. -/
def block (scope : Scope) (isThere : Path → Bool) (changed : List Path) (outcome : Outcome ε) :
    List (Event ε) :=
  (scope.gone isThere changed).map
      (fun p => .notice ("[watch] file no longer exists: " ++ p.name)) ++
    if scope.present isThere changed = [] then []
    else cycleEvents (scope.present isThere changed) outcome

/-- The cycles that batches set off: the sources that are there of each batch that has any. -/
def calls (scope : Scope) (isThere : Path → Bool) (batches : List (List Path)) : List (List Path) :=
  (batches.map (scope.present isThere)).filter (· ≠ [])

/-- The events of batches, block by block.  The cycle of a batch comes to the first outcome that the
batches before it have not used up. -/
def blocks (scope : Scope) (isThere : Path → Bool) (script : Nat → Outcome ε)
    (batches : List (List Path)) : List (List (Event ε)) :=
  batches.mapIdx fun k changed =>
    .batch :: block scope isThere changed (script (calls scope isThere (batches.take k)).length)

/-! ## 3. One batch -/

variable (scope : Scope) (paths : β → List Path) (isThere : Path → Bool) (script : Nat → Outcome ε)

theorem calls_cons (changed : List Path) (batches : List (List Path)) :
    calls scope isThere (changed :: batches) =
      calls scope isThere [changed] ++ calls scope isThere batches := by
  unfold calls
  rw [List.map_cons, List.map_singleton, ← List.filter_append, List.singleton_append]

/-- **What the loop does for a batch is its block**, and it runs a cycle exactly if some of the
sources are there. -/
theorem step_scripted (changed : List Path) (before : List (List Path)) :
    step (scripted paths isThere script) (scope.sources changed) before =
      (block scope isThere changed (script before.length), .ok (),
        before ++ calls scope isThere [changed]) := by
  have hsplit : partitionGone ((scripted paths isThere script).exists? before)
      (scope.sources changed) =
        .ok (scope.gone isThere changed, scope.present isThere changed) :=
    partitionGone_eq_filter isThere (scope.sources changed)
  unfold step
  rw [hsplit]
  by_cases hnone : scope.present isThere changed = []
  · have hcalls : calls scope isThere [changed] = [] := by simp [calls, hnone]
    rw [block, if_pos hnone, hcalls, List.append_nil, List.append_nil, hnone]
    rfl
  · have hcalls : calls scope isThere [changed] = [scope.present isThere changed] := by
      simp [calls, hnone]
    have hsome : (scope.present isThere changed).isEmpty = false := by simpa using hnone
    rw [block, if_neg hnone, hcalls]
    simp only [scripted, hsome]
    rcases script before.length with ⟨e | c, log⟩
    · exact Prod.ext (List.append_assoc _ _ _) rfl
    · exact Prod.ext (List.append_assoc _ _ _) rfl

/-! ## 4. All batches -/

/-- The blocks of the batches after the first follow the script from where the first has left it. -/
theorem blocks_cons (changed : List Path) (batches : List (List Path)) :
    blocks scope isThere script (changed :: batches) =
      (.batch :: block scope isThere changed (script 0)) ::
        blocks scope isThere (fun n => script ((calls scope isThere [changed]).length + n))
          batches := by
  rw [blocks, List.mapIdx_cons]
  refine congrArg (_ :: ·) ?_
  unfold blocks
  simp only [List.take_succ_cons, calls_cons scope isThere changed (List.take _ _),
    List.length_append]

/-- **A loop is its blocks.**  The calls that were received before shift the script. -/
theorem loop_scripted : ∀ (batches : List β) (before : List (List Path)),
    loop (scripted paths isThere script) scope batches before =
      ((blocks scope isThere (fun n => script (before.length + n)) (batches.map paths)).flatten,
        .ok (), before ++ calls scope isThere (batches.map paths))
  | [], before => by
    rw [List.map_nil]
    exact Prod.ext rfl (Prod.ext rfl (List.append_nil before).symm)
  | batch :: rest, before => by
    -- the rest of the loop starts with the call of this batch, if there was one, made
    have ih := loop_scripted rest (before ++ calls scope isThere [paths batch])
    have harrive : (scripted paths isThere script).arrive batch before =
      (paths batch, before) := rfl
    rw [loop, harrive]
    dsimp only
    rw [step_scripted]
    change (fun r =>
        (.batch :: block scope isThere (paths batch) (script before.length) ++ r.1, r.2))
      (loop (scripted paths isThere script) scope rest
        (before ++ calls scope isThere [paths batch])) = _
    rw [ih]
    simp only [List.map_cons, blocks_cons, calls_cons scope isThere (paths batch) (rest.map paths),
      List.flatten_cons, List.cons_append, List.length_append, List.append_assoc, Nat.add_assoc,
      Nat.add_zero]

/-- Only the block of the cycle with number `n` looks at the outcome with number `n`. -/
theorem blocks_update {batches : List (List Path)} {n k : Nat} (outcome : Outcome ε)
    (h : (calls scope isThere (batches.take k)).length ≠ n) :
    (blocks scope isThere (Function.update script n outcome) batches)[k]? =
      (blocks scope isThere script batches)[k]? := by
  simp only [blocks, List.getElem?_mapIdx]
  rw [Function.update_of_ne h]

/-- **The trace of a watch is one block for each batch.**

All batches are met, in their order, and the loop does not end before them.  The block of a batch
tells of its sources that are gone, in the order of paths, and then, exactly if some of its sources
are there, of one cycle for these: of the change, the cycle itself, and its result or its failure.
The cycles that are run are those of the blocks.  The sources of a batch are those of its paths that
lie in the scope, each once.  What a cycle comes to, a failure or not, is seen in no block but its
own. -/
theorem loop_eq_blocks (batches : List β) :
    loop (scripted paths isThere script) scope batches [] =
        ((blocks scope isThere script (batches.map paths)).flatten, .ok (),
          calls scope isThere (batches.map paths)) ∧
      (∀ changed, (scope.sources changed).Nodup ∧
        (scope.sources changed).Pairwise (fun a b => a.key ≤ b.key) ∧
        ∀ p, p ∈ scope.sources changed ↔ p ∈ changed ∧ scope.contains p = true) ∧
      ∀ n outcome k, (calls scope isThere ((batches.map paths).take k)).length ≠ n →
        (blocks scope isThere (Function.update script n outcome) (batches.map paths))[k]? =
          (blocks scope isThere script (batches.map paths))[k]? := by
  refine ⟨?_, scope.sources_spec, fun n outcome k h => blocks_update scope isThere script outcome h⟩
  have hloop := loop_scripted scope paths isThere script batches []
  simpa only [List.length_nil, Nat.zero_add, List.nil_append] using hloop

/-- Two batches, the cycle of the first of which fails: the second cycle is run, and its block is
the one it would be after a result. -/
theorem loop_eq_blocks_failing :
    let scope : Scope := { roots := [⟨.root, ["s"]⟩] }
    let first : Path := ⟨.root, ["s", "A.xcs"]⟩
    let second : Path := ⟨.root, ["s", "B.xcs"]⟩
    let script : Nat → Outcome Text := Function.update (fun _ => (.ok {}, [])) 0 (.error "boom", [])
    (loop (scripted id (fun _ => true) script) scope [[first], [second]] []).2.2 =
        [[first], [second]] ∧
      (calls scope (fun _ => true) [[first]]).length ≠ 0 ∧
      (blocks scope (fun _ => true) script [[first], [second]])[1]? =
        (blocks scope (fun _ => true) (fun _ => (.ok {}, [])) [[first], [second]])[1]? := by
  intro scope first second script
  have hfirst : (calls scope (fun _ => true) [[first]]).length ≠ 0 := by decide +kernel
  have hcalls : calls scope (fun _ => true) [[first], [second]] = [[first], [second]] := by
    decide +kernel
  refine ⟨?_, hfirst, ?_⟩
  · rw [(loop_eq_blocks scope id (fun _ => true) script [[first], [second]]).1]
    exact hcalls
  · exact (loop_eq_blocks scope id (fun _ => true) (fun _ => (.ok {}, []))
      [[first], [second]]).2.2 0 _ 1 hfirst

end InlineMarkup.Watch
