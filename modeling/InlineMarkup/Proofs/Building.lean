import InlineMarkup.Project.Build
import InlineMarkup.Proofs.Attempts
import InlineMarkup.Proofs.Discovery
import InlineMarkup.Proofs.Writing

/-!
# Building sources, and building them again

Building a source reads it and writes its output, each with retries.  Attempts that follow one
another end alike, so retries change neither what is written nor whether it is
(`leaves_storeText`, `standing_storeText`).

A build of several sources is a run of single builds (`Builds`), and what the clock says has no part
in it (`builds_of_buildEach`, `buildEach_of_builds`).  One step of the run can be made again on any
disk that has grown from where it ended and on which the source reads as it did; it then has the
same result and makes the same writes (`rebuilds`).  By induction so can the whole run
(`Builds.again`), and writing the same files once more changes nothing.
-/

namespace InlineMarkup

namespace Project

open Disk (Leads Behind Leaves Grows verdict writes FileFault)

/-! ## 1. How work on a file ends -/

/-- How work on a file ends: well, or with an error that is reported or is not. -/
def standing {α : Type} : Except FileError α → Option Bool
  | .ok _ => none
  | .error e => some e.isReported

theorem standing_map {α β : Type} (f : α → β) (r : Except FileError α) :
    standing (r.map f) = standing r := by
  cases r <;> rfl

theorem toOption_map {ε α β : Type} (f : α → β) (r : Except ε α) :
    (r.map f).toOption = r.toOption.map f := by
  cases r <;> rfl

theorem eq_ok_of_toOption {ε α : Type} {r : Except ε α} {a : α} (h : r.toOption = some a) :
    r = .ok a := by
  cases r with
  | ok b => exact congrArg Except.ok (Option.some.inj h)
  | error e => cases h

theorem eq_error_of_standing {α : Type} {r : Except FileError α} {reported : Bool}
    (h : standing r = some reported) : ∃ e, r = .error e ∧ e.isReported = reported := by
  cases r with
  | ok a => cases h
  | error e => exact ⟨e, rfl, Option.some.inj h⟩

/-- Work without a value that ends alike comes to the same. -/
theorem toOption_of_standing {r r' : Except FileError Unit} (h : standing r' = standing r) :
    r'.toOption = r.toOption := by
  cases r with
  | ok done =>
    cases r' with
    | ok done' => rfl
    | error e' => cases h
  | error e =>
    cases r' with
    | ok done' => cases h
    | error e' => rfl

/-- How an attempt ends: well, or with a fault, of which it is told whether it may pass and whether
it is reported. -/
def kind {α : Type} : Except FileFault α → Option (Bool × Bool)
  | .ok _ => none
  | .error f => some (f.mayPass, (FileError.file f).isReported)

/-- A fault that may pass is reported. -/
theorem isReported_of_mayPass {f : FileFault} (h : f.mayPass = true) :
    (FileError.file f).isReported = true := by
  rw [FileFault.mayPass, Bool.and_eq_true] at h
  cases f with
  | disk f => exact h.1
  | stream r => rfl
  | undecodable f => rfl

/-- How work ends whose attempts all end alike. -/
def Patience.standing (patience : Patience) : Option (Bool × Bool) → Option Bool
  | none => none
  | some (mayPass, reported) =>
    if mayPass && 1 < Retry.attempts patience.retries && patience.delay.isUncountable then
      some false
    else some reported

/-- Work ends well only if its attempts do. -/
theorem Patience.eq_none_of_standing (patience : Patience) {ends : Option (Bool × Bool)}
    (h : patience.standing ends = none) : ends = none := by
  cases ends with
  | none => rfl
  | some ends =>
    rw [Patience.standing] at h
    split at h <;> cases h

/-! ## 2. Reading and writing with retries -/

section Retries

variable {α : Type} {system : System} {p : Path}
  {operation : Disk.Conditions → Disk → Except FileFault α × Disk}

theorem isTriedAgain_retrying_iff {delay : Duration} {f : FileFault} :
    (retrying system p delay operation).IsTriedAgain (.error (.file f)) ↔ f.mayPass = true := by
  rw [FileFault.mayPass, Bool.and_eq_true, Bool.not_eq_true']
  constructor
  · rintro ⟨e, he, hsystem, hmissing⟩
    cases he
    exact ⟨hsystem, hmissing⟩
  · rintro ⟨hsystem, hmissing⟩
    exact ⟨_, rfl, hsystem, hmissing⟩

variable (system p operation) in
/-- What holds of one attempt holds of the work as a whole. -/
theorem withRetries_spec {Q : Disk → Prop} {R : Except FileFault α → Disk → Disk → Prop}
    (hstep : ∀ n d, Q d → Q (operation (system.conditions p n) d).2 ∧
      R (operation (system.conditions p n) d).1 d (operation (system.conditions p n) d).2)
    (htrans : ∀ e r d d₁ d₂, R (.error e) d d₁ → R r d₁ d₂ → R r d d₂)
    (name : Text) (patience : Patience) {d : Disk} (hd : Q d) :
    ∃ r, R r d (withRetries system name p patience operation d).disk ∧
      (withRetries system name p patience operation d).result.toOption = r.toOption := by
  let work := retrying system p patience.delay operation
  let R' : Except FileError α → Nat × Disk → Nat × Disk → Prop := fun o w w' =>
    ∃ r, R r w.2 w'.2 ∧ o.toOption = r.toOption
  have hcall : ∀ w, Q w.2 → Q (work.operation w).2.2 ∧
      R' (work.operation w).1 w (work.operation w).2 := by
    intro w hw
    obtain ⟨hkeeps, hdone⟩ := hstep (w.1 + 1) w.2 hw
    refine ⟨hkeeps, _, hdone, ?_⟩
    dsimp only [work, retrying]
    cases (operation (system.conditions p (w.1 + 1)) w.2).1 <;> rfl
  have hafter : ∀ e o w w₁ w₂, R' (.error e) w w₁ → R' o w₁ w₂ → R' o w w₂ := by
    rintro e o w w₁ w₂ ⟨r₁, hr₁, hnone⟩ ⟨r₂, hr₂, hsome⟩
    cases r₁ with
    | ok a => cases hnone
    | error f => exact ⟨r₂, htrans f r₂ _ _ _ hr₁ hr₂, hsome⟩
  obtain ⟨o, ⟨r, hr, hresult⟩, hvalue⟩ := Retry.start_spec (r := work) (Q := fun w => Q w.2) hcall
    (fun _ => rfl) hafter patience.retries (s := (0, d)) hd
  refine ⟨r, hr, ?_⟩
  rw [withRetries, Retry.Ending.toOption_result, hvalue, hresult]

/-- A pause that can be counted is refused with a fault that is reported. -/
theorem isReported_of_pause {delay : Duration} (hshort : delay.isUncountable = false)
    {reading : Nat} {e : FileError} (h : pause delay reading = .error e) : e.isReported = true := by
  unfold pause Duration.pauseFault? at h
  rw [hshort, if_neg Bool.false_ne_true] at h
  split at h
  · rename_i f hf
    cases h
    split at hf
    · cases hf
      rfl
    · cases hf
  · cases h

theorem pause_of_isUncountable {delay : Duration} (hlong : delay.isUncountable = true)
    (reading : Nat) : pause delay reading = .error (.pause .tooLong) := by
  rw [pause, Duration.pauseFault?, if_pos hlong]

theorem not_isTriedAgain_ok {delay : Duration} (a : α) :
    ¬(retrying system p delay operation).IsTriedAgain (.ok a) := by
  rintro ⟨e, he, -⟩
  cases he

variable (system p operation) in
/-- The first attempt. -/
theorem operation_retrying (delay : Duration) (d : Disk) :
    ((retrying system p delay operation).operation (0, d)).1 =
      (operation (system.conditions p 1) d).1.mapError .file := rfl

/-- How an attempt ends, as the end of the work. -/
theorem standing_ofOutcome (r : Except FileFault α) :
    standing ((Retry.Ending.ofOutcome (r.mapError .file)).result .unreachable) =
      (kind r).map Prod.snd := by
  cases r <;> rfl

/-- Where no pause can be counted, work ends with its first attempt: as that does, or with the pause
after it. -/
theorem standing_of_uncountable (name : Text) {patience : Patience}
    (hlong : patience.delay.isUncountable = true) (d : Disk) :
    standing (withRetries system name p patience operation d).result =
      patience.standing (kind (operation (system.conditions p 1) d).1) := by
  unfold withRetries
  dsimp only
  have hop := operation_retrying system p operation patience.delay d
  generalize (operation (system.conditions p 1) d).1 = first at hop
  by_cases hagain : ∃ f, first = .error f ∧ f.mayPass = true ∧ 1 < Retry.attempts patience.retries
  · obtain ⟨f, rfl, hpasses, hmore⟩ := hagain
    have hcut := Retry.start_of_refused (r := retrying system p patience.delay operation) hmore
      (by rw [hop]; exact isTriedAgain_retrying_iff.mpr hpasses) (pause_of_isUncountable hlong _)
    rw [hcut]
    simp [kind, Patience.standing, hpasses, hmore, hlong, standing, Retry.Ending.result,
      FileError.isReported, FileError.isOfSystem]
  · have hends := Retry.start_of_first (r := retrying system p patience.delay operation)
      patience.retries (s := (0, d)) ?_
    · rw [hends, Retried.final, hop, standing_ofOutcome]
      cases first with
      | ok a => rfl
      | error f =>
        have hnot : ¬(f.mayPass = true ∧ 1 < Retry.attempts patience.retries) := fun h =>
          hagain ⟨f, rfl, h⟩
        rw [kind, Patience.standing, if_neg (by simpa [hlong] using hnot)]
        rfl
    · by_contra hnot
      rw [not_or, not_not, hop] at hnot
      obtain ⟨hne, htried⟩ := hnot
      have hmore := Nat.lt_of_le_of_ne (Retry.one_le_attempts patience.retries) (Ne.symm hne)
      cases first with
      | ok a => exact not_isTriedAgain_ok a htried
      | error f => exact hagain ⟨f, rfl, isTriedAgain_retrying_iff.mp htried, hmore⟩

/-- Where pauses can be counted, work whose attempts all end alike ends as they do: a pause that is
refused is reported, and so is the fault that is to be retried. -/
theorem standing_of_countable {Q : Disk → Prop} {ends : Option (Bool × Bool)}
    (hstep : ∀ n d, Q d → Q (operation (system.conditions p n) d).2 ∧
      kind (operation (system.conditions p n) d).1 = ends)
    (name : Text) {patience : Patience} (hshort : patience.delay.isUncountable = false) {d : Disk}
    (hd : Q d) :
    standing (withRetries system name p patience operation d).result = ends.map Prod.snd := by
  refine Retry.start_ending (r := retrying system p patience.delay operation)
    (Q := fun w => Q w.2)
    (P := fun ending => standing (ending.result .unreachable) = ends.map Prod.snd)
    (fun w hw => ?_) (fun w hw htried e he => ?_) patience.retries (s := (0, d)) hd
  · obtain ⟨hkeeps, hends⟩ := hstep (w.1 + 1) w.2 hw
    exact ⟨hkeeps, hends ▸ standing_ofOutcome _⟩
  · have hends := (hstep (w.1 + 1) w.2 hw).2
    have hop : ((retrying system p patience.delay operation).operation w).1 =
      (operation (system.conditions p (w.1 + 1)) w.2).1.mapError .file := rfl
    rw [hop] at htried
    generalize (operation (system.conditions p (w.1 + 1)) w.2).1 = r at hends htried
    subst hends
    cases r with
    | ok a => exact absurd htried (not_isTriedAgain_ok a)
    | error f =>
      rw [Retry.Ending.result, standing, isReported_of_pause hshort he, kind,
        isReported_of_mayPass (isTriedAgain_retrying_iff.mp htried)]
      rfl

variable (system p operation) in
/-- **Work whose attempts all end alike ends as its first attempt does**, unless the pause after it
cannot be counted. -/
theorem standing_withRetries {Q : Disk → Prop} {ends : Option (Bool × Bool)}
    (hstep : ∀ n d, Q d → Q (operation (system.conditions p n) d).2 ∧
      kind (operation (system.conditions p n) d).1 = ends)
    (name : Text) (patience : Patience) {d : Disk} (hd : Q d) :
    standing (withRetries system name p patience operation d).result = patience.standing ends := by
  cases hlong : patience.delay.isUncountable with
  | true => rw [standing_of_uncountable name hlong d, (hstep 1 d hd).2]
  | false =>
    rw [standing_of_countable hstep name hlong hd]
    cases ends with
    | none => rfl
    | some ends => simp [Patience.standing, hlong]

end Retries

theorem readText_eq_ok {d : Disk} {cwd p : Path} {c : Disk.Conditions} {t : Text}
    (h : d.readText cwd p c = .ok t) : d.readText cwd p = .ok t := by
  unfold Disk.readText at h ⊢
  split at h
  · cases h
  · dsimp only
    cases hbytes : d.readBytes cwd p with
    | error f =>
      rw [hbytes] at h
      cases h
    | ok bytes =>
      rw [hbytes] at h
      dsimp only at h ⊢
      split at h
      · cases h
      · exact h

section Fetch

variable {system : System} {d : Disk} {cwd p : Path} (patience : Patience)

theorem fetchText_disk (system : System) (d : Disk) (cwd p : Path) (patience : Patience) :
    (fetchText system d cwd p patience).disk = d := by
  obtain ⟨r, hdisk, -⟩ := withRetries_spec system p (fun c d => (d.readText cwd p c, d))
    (Q := fun _ => True)
    (R := fun _ d d' => d' = d) (fun _ _ _ => ⟨trivial, rfl⟩) (fun _ _ _ _ _ h h' => h'.trans h)
    "read " patience (d := d) trivial
  exact hdisk

/-- What has been read with retries can be read. -/
theorem readText_of_fetchText {patience : Patience} {t : Text}
    (h : (fetchText system d cwd p patience).result = .ok t) : d.readText cwd p = .ok t := by
  obtain ⟨r, hr, hresult⟩ := withRetries_spec system p (fun c d => (d.readText cwd p c, d))
    (Q := fun _ => True)
    (R := fun r d d' => d' = d ∧ ∃ c, r = d.readText cwd p c)
    (fun n d _ => ⟨trivial, rfl, _, rfl⟩) (fun e r d d₁ d₂ h h' => h.1 ▸ h') "read " patience
    (d := d) trivial
  obtain ⟨-, c, rfl⟩ := hr
  unfold fetchText at h
  rw [h] at hresult
  exact readText_eq_ok (eq_ok_of_toOption hresult.symm)

variable (clock : Path → Nat → Nat)

/-- **How reading with retries ends is known from the file**, if nothing is refused. -/
theorem standing_fetchText : standing (fetchText (.orderly clock) d cwd p patience).result =
    patience.standing (kind (d.readText cwd p)) :=
  standing_withRetries (.orderly clock) p (fun c d => (d.readText cwd p c, d))
    (Q := fun d' => d' = d) (fun n d' hd' => ⟨hd', by rw [hd']; rfl⟩) "read " patience rfl

/-- Where nothing is refused, a file that can be read is read. -/
theorem fetchText_of_readText {t : Text} (h : d.readText cwd p = .ok t) :
    (fetchText (.orderly clock) d cwd p patience).result = .ok t := by
  have hstanding : standing (fetchText (.orderly clock) d cwd p patience).result = _ :=
    standing_fetchText patience clock
  cases hresult : (fetchText (.orderly clock) d cwd p patience).result with
  | ok u => rw [Except.ok.inj (h.symm.trans (readText_of_fetchText hresult))]
  | error e =>
    rw [hresult, h] at hstanding
    cases hstanding

end Fetch

section Store

variable {d : Disk} {cwd q : Path} {l : Location} {folders : List Text} {name : Text}
  (clock : Path → Nat → Nat)

/-- A fault of a write behind a directory is reported if it may pass: nothing is missing there. -/
theorem kind_writeText (hbehind : Behind d cwd q l folders name) (htree : d.IsTree) (t : Text) :
    kind (d.writeText cwd (q.extend (folders ++ [name])) t).1 =
      (verdict (d.writeText cwd (q.extend (folders ++ [name])) t).1).map fun b => (b, b) := by
  obtain ⟨⟨r, d'⟩, h⟩ :
    ∃ written, d.writeText cwd (q.extend (folders ++ [name])) t = written := ⟨_, rfl⟩
  rw [h]
  cases r with
  | ok done => rfl
  | error f =>
    obtain ⟨g, rfl, hmissing⟩ := hbehind.fault htree h
    simp [kind, verdict, FileError.isReported, FileError.isOfSystem, FileFault.mayPass,
      FileFault.isOfSystem, FileFault.isMissing, hmissing]

variable (hbehind : Behind d cwd q l folders name) (htree : d.IsTree) (t : Text)
  (patience : Patience)

include hbehind htree

theorem leaves_storeText :
    Leaves l (writes (Path.resolvedParts cwd (q.extend (folders ++ [name]))) (Utf8.encode t)
        (storeText (.orderly clock) d cwd (q.extend (folders ++ [name])) t patience).result)
      d (storeText (.orderly clock) d cwd (q.extend (folders ++ [name])) t patience).disk := by
  have hstep : ∀ (n : Nat) (d : Disk), d.IsTree ∧ Behind d cwd q l folders name →
      ((d.writeText cwd (q.extend (folders ++ [name])) t).2.IsTree ∧
        Behind (d.writeText cwd (q.extend (folders ++ [name])) t).2 cwd q l folders name) ∧
      Leaves l (writes (Path.resolvedParts cwd (q.extend (folders ++ [name]))) (Utf8.encode t)
          (d.writeText cwd (q.extend (folders ++ [name])) t).1)
        d (d.writeText cwd (q.extend (folders ++ [name])) t).2 := by
    rintro n d ⟨htree, hbehind⟩
    have hleaves := hbehind.leaves (t := t) htree Prod.mk.eta.symm
    exact ⟨⟨hleaves.tree, hbehind.grows hleaves.grows⟩, hleaves⟩
  obtain ⟨r, hleaves, hresult⟩ := withRetries_spec (.orderly clock)
    (q.extend (folders ++ [name])) (fun c d => d.writeText cwd (q.extend (folders ++ [name])) t c)
    (Q := fun d => d.IsTree ∧ Behind d cwd q l folders name)
    (R := fun r d d' => Leaves l (writes _ (Utf8.encode t) r) d d') hstep
    (fun e r d d₁ d₂ h h' => h.trans h') "write " patience ⟨htree, hbehind⟩
  unfold storeText
  rw [writes, hresult]
  exact hleaves

omit hbehind htree in
/-- The disk goes on growing from the first attempt. -/
theorem grows_storeText : Grows (d.writeText cwd (q.extend (folders ++ [name])) t).2
    (storeText (.orderly clock) d cwd (q.extend (folders ++ [name])) t patience).disk := by
  have hwrite : ∀ d : Disk, Grows d (d.writeText cwd (q.extend (folders ++ [name])) t).2 :=
    fun d => (Disk.written_writeText rfl Prod.mk.eta.symm).grows
  obtain ⟨r, hgrows, -⟩ := withRetries_spec (.orderly clock)
    (q.extend (folders ++ [name])) (fun c d => d.writeText cwd (q.extend (folders ++ [name])) t c)
    (Q := fun _ => True)
    (R := fun _ d d' => Grows (d.writeText cwd (q.extend (folders ++ [name])) t).2 d')
    (fun n d _ => ⟨trivial, .refl _⟩) (fun e r d d₁ d₂ h h' => h.trans ((hwrite d₁).trans h'))
    "write " patience (d := d) trivial
  exact hgrows

/-- **How a write with retries ends is known from its first attempt**, if nothing is refused. -/
theorem standing_storeText :
    standing (storeText (.orderly clock) d cwd (q.extend (folders ++ [name])) t patience).result =
      patience.standing (kind (d.writeText cwd (q.extend (folders ++ [name])) t).1) := by
  -- an attempt that has ended so goes on ending so
  refine standing_withRetries (.orderly clock) (q.extend (folders ++ [name]))
    (fun c d => d.writeText cwd (q.extend (folders ++ [name])) t c)
    (Q := fun e => e.IsTree ∧ Behind e cwd q l folders name ∧
      verdict (e.writeText cwd (q.extend (folders ++ [name])) t).1 =
        verdict (d.writeText cwd (q.extend (folders ++ [name])) t).1)
    (fun n e he => ?_) "write " patience ⟨htree, hbehind, rfl⟩
  obtain ⟨htree', hbehind', hverdict⟩ := he
  have hleaves := hbehind'.leaves htree' (t := t) Prod.mk.eta.symm
  have hagain :=
    hbehind'.verdict_writeText htree' (t := t) Prod.mk.eta.symm (.refl _) hleaves.tree t
  have hkind := kind_writeText hbehind' htree' t
  rw [hverdict, ← kind_writeText hbehind htree t] at hkind
  exact ⟨⟨hleaves.tree, hbehind'.grows hleaves.grows, hagain.trans hverdict⟩, hkind⟩

/-- A write with retries that succeeds is one to a proper name. -/
theorem isProper_of_storeText
    (h : (storeText (.orderly clock) d cwd (q.extend (folders ++ [name])) t patience).result =
      .ok ()) : Path.IsProper name := by
  have hstanding := standing_storeText clock hbehind htree t patience
  obtain ⟨⟨r, d₁⟩, hfirst⟩ :
    ∃ first, d.writeText cwd (q.extend (folders ++ [name])) t = first := ⟨_, rfl⟩
  rw [h, hfirst] at hstanding
  cases r with
  | ok done => exact hbehind.isProper_name htree hfirst
  | error f => cases patience.eq_none_of_standing hstanding.symm

/-- **A write with retries ends as it has ended before**, whatever the clock reads. -/
theorem standing_storeText_again {d₂ : Disk} (htree₂ : d₂.IsTree)
    (hgrows : Grows
      (storeText (.orderly clock) d cwd (q.extend (folders ++ [name])) t patience).disk d₂)
    (clock' : Path → Nat → Nat) (u : Text) :
    standing (storeText (.orderly clock') d₂ cwd (q.extend (folders ++ [name])) u patience).result =
      standing
        (storeText (.orderly clock) d cwd (q.extend (folders ++ [name])) t patience).result := by
  have hfirst := (grows_storeText clock t patience).trans hgrows
  have hbehind₂ := hbehind.grows ((Disk.written_writeText rfl Prod.mk.eta.symm).grows.trans hfirst)
  rw [standing_storeText clock' hbehind₂ htree₂, standing_storeText clock hbehind htree,
    kind_writeText hbehind₂ htree₂, kind_writeText hbehind htree,
    hbehind.verdict_writeText htree Prod.mk.eta.symm hfirst htree₂ u]

end Store

/-! ## 3. One source -/

section Compile

variable {system : System} {d : Disk} {cwd source : Path} (output : Path) (names : Names)
  {patience : Patience}

theorem compile_of_error {f : FileError}
    (h : (fetchText system d cwd source patience).result = .error f) :
    (compile system d cwd source output names patience).result = .error f ∧
      (compile system d cwd source output names patience).disk = d := by
  unfold compile
  dsimp only
  rw [h]
  exact ⟨rfl, fetchText_disk system d cwd source patience⟩

theorem compile_of_ok {t : Text} (h : (fetchText system d cwd source patience).result = .ok t) :
    (compile system d cwd source output names patience).result =
        (storeText system d cwd output (expand names t).text patience).result.map
          (fun _ => (expand names t).expansions) ∧
      (compile system d cwd source output names patience).disk =
        (storeText system d cwd output (expand names t).text patience).disk := by
  unfold compile
  dsimp only
  rw [h, fetchText_disk]
  exact ⟨rfl, rfl⟩

/-- Reading a source, expanding it and writing the output can be done again, with the same end,
whatever the clock reads. -/
theorem compile_again {output q : Path} {g : Location} {folders : List Text} {name : Text}
    (hbehind : Behind d cwd q g folders name) (htree : d.IsTree)
    (houtput : output = q.extend (folders ++ [name])) (source : Path) (patience : Patience)
    (clock : Path → Nat → Nat) :
    let done := compile (.orderly clock) d cwd source output names patience
    ∃ ws, Leaves g ws d done.disk ∧
      (∀ expansions, done.result = .ok expansions →
        Path.IsProper name ∧ ∃ t, d.readText cwd source = .ok t ∧
          ws = [(Path.resolvedParts cwd output, Utf8.encode (expand names t).text)]) ∧
      (∀ f, done.result = .error f → ws = []) ∧
      ∀ (clock' : Path → Nat → Nat) (d₂ : Disk), d₂.IsTree → Grows done.disk d₂ →
        d₂.readText cwd source = d.readText cwd source →
        let again := compile (.orderly clock') d₂ cwd source output names patience
        again.result.toOption = done.result.toOption ∧
          standing again.result = standing done.result ∧ Leaves g ws d₂ again.disk := by
  dsimp only
  cases hfetch : (fetchText (.orderly clock) d cwd source patience).result with
  | error f =>
    obtain ⟨hresult, hdisk⟩ := compile_of_error output names hfetch
    rw [hresult, hdisk]
    refine ⟨[], .refl htree, nofun, fun _ _ => rfl, fun clock' d₂ htree₂ _ hread => ?_⟩
    have hsame : standing (fetchText (.orderly clock') d₂ cwd source patience).result =
        some f.isReported := by
      rw [standing_fetchText, hread, ← standing_fetchText patience clock, hfetch]
      rfl
    obtain ⟨f₂, hfetch₂, hreported⟩ := eq_error_of_standing hsame
    obtain ⟨hresult₂, hdisk₂⟩ := compile_of_error output names hfetch₂
    rw [hresult₂, hdisk₂]
    exact ⟨rfl, congrArg some hreported, .refl htree₂⟩
  | ok t =>
    subst houtput
    have hread₁ := readText_of_fetchText hfetch
    obtain ⟨hresult, hdisk⟩ := compile_of_ok (q.extend (folders ++ [name])) names hfetch
    have hleaves := leaves_storeText clock hbehind htree (expand names t).text patience
    rw [hresult, hdisk]
    refine ⟨_, hleaves, fun expansions hok => ?_, fun f hf => ?_,
      fun clock' d₂ htree₂ hgrows hread => ?_⟩
    · have hproper := isProper_of_storeText clock hbehind htree (expand names t).text
        patience
      generalize (storeText (.orderly clock) d cwd (q.extend (folders ++ [name]))
        (expand names t).text patience).result = r at hok hproper ⊢
      cases r with
      | error e => cases hok
      | ok done => exact ⟨hproper rfl, t, hread₁, rfl⟩
    · generalize (storeText (.orderly clock) d cwd (q.extend (folders ++ [name]))
        (expand names t).text patience).result = r at hf ⊢
      cases r with
      | error e => rfl
      | ok done => cases hf
    · have hfetch₂ := fetchText_of_readText patience clock' (hread.trans hread₁)
      obtain ⟨hresult₂, hdisk₂⟩ := compile_of_ok (q.extend (folders ++ [name])) names hfetch₂
      have hbehind₂ := hbehind.grows (hleaves.grows.trans hgrows)
      have hleaves₂ := leaves_storeText clock' hbehind₂ htree₂ (expand names t).text
        patience
      have hstanding :=
        standing_storeText_again clock hbehind htree (expand names t).text patience htree₂
        hgrows clock' (expand names t).text
      have hsame := toOption_of_standing hstanding
      rw [hresult₂, hdisk₂, standing_map, standing_map]
      refine ⟨?_, hstanding, ?_⟩
      · rw [toOption_map, toOption_map, hsame]
      · rwa [writes, hsame] at hleaves₂

end Compile

section Untimed

variable {system : System} {d : Disk} {cwd root source out : Path} {plan : Plan}
  (hout : Path.output cwd source root plan.generatedDir plan.outputSuffix = .ok out)

include hout

theorem buildFileUntimed_disk : (buildFileUntimed system d cwd root source plan).disk =
    (compile system d cwd source out plan.names plan.patience).disk := by
  unfold buildFileUntimed
  rw [hout]
  dsimp only
  split
  · rfl
  · split <;> rfl

theorem buildFileUntimed_of_ok {expansions : List Expansion}
    (h : (compile system d cwd source out plan.names plan.patience).result = .ok expansions) :
    (buildFileUntimed system d cwd root source plan).result =
      .ok { source := source, output := out, expansions := expansions } := by
  unfold buildFileUntimed
  rw [hout]
  dsimp only
  rw [h]

theorem buildFileUntimed_of_error {f : FileError}
    (h : (compile system d cwd source out plan.names plan.patience).result = .error f) :
    (buildFileUntimed system d cwd root source plan).result =
      if f.isReported then
        .ok { source := source, output := out, error := some (f.label ++ ": " ++ f.message) }
      else .error (.file f) := by
  unfold buildFileUntimed
  rw [hout]
  dsimp only
  rw [h]
  dsimp only
  split <;> rfl

end Untimed

theorem behind_of_output {d : Disk} {cwd source root out : Path} {generated suffix : Text}
    {g : Location} (hcwd : cwd.IsResolved) (hsource : '/' ∉ source.name)
    (hleads : Leads d cwd (root.child generated) g)
    (h : Path.output cwd source root generated suffix = .ok out) :
    ∃ folders name, out = (root.child generated).extend (folders ++ [name]) ∧
      Behind d cwd (root.child generated) g folders name := by
  obtain ⟨name, hname, -, rfl⟩ := Path.eq_of_output hcwd hsource h
  exact ⟨_, name, rfl, hleads, (Path.isWithin_within hcwd hsource root).folders,
    Path.isProper_of_mem_partsOf (hname ▸ List.mem_singleton_self name)⟩

/-- The results are alike: the same source has gone to the same output with the same expansions, or
has failed in both. -/
structure FileResult.Alike (r r' : FileResult) : Prop where
  source : r'.source = r.source
  output : r'.output = r.output
  expansions : r'.expansions = r.expansions
  error : r'.error.isSome = r.error.isSome

theorem FileResult.Alike.trans {r r' r'' : FileResult} (h : r.Alike r') (h' : r'.Alike r'') :
    r.Alike r'' where
  source := h'.source.trans h.source
  output := h'.output.trans h.output
  expansions := h'.expansions.trans h.expansions
  error := h'.error.trans h.error

theorem alike_trans : ∀ {rs rs' rs'' : List FileResult}, List.Forall₂ FileResult.Alike rs rs' →
    List.Forall₂ FileResult.Alike rs' rs'' → List.Forall₂ FileResult.Alike rs rs''
  | [], _, _, .nil, .nil => .nil
  | _ :: _, _, _, .cons h hs, .cons h' hs' => .cons (h.trans h') (alike_trans hs hs')

/-- What building a source comes to: the writes it makes behind the generated directory, its own
output among them if it succeeds; and on a disk that has grown since, on which the source reads as
it did, it comes to the same, whatever the clock reads. -/
structure Rebuilds (cwd root source : Path) (plan : Plan) (g : Location)
    (ws : List (Location × List UInt8)) (d : Disk) (r : FileResult) (d' : Disk) : Prop where
  source_eq : r.source = source
  output_eq : Path.output cwd source root plan.generatedDir plan.outputSuffix = .ok r.output
  leaves : Leaves g ws d d'
  failed : r.error ≠ none → ws = []
  proper : r.error = none → ∃ parts, (∀ part ∈ parts, Path.IsProper part) ∧
    r.output = (root.child plan.generatedDir).extend parts
  own : r.error = none → ∃ t, d.readText cwd source = .ok t ∧
    ws = [(Path.resolvedParts cwd r.output, Utf8.encode (expand plan.names t).text)]
  again : ∀ (clock : Path → Nat → Nat) (d₂ : Disk), d₂.IsTree → Grows d' d₂ →
    d₂.readText cwd source = d.readText cwd source →
    ∃ r', (buildFileUntimed (.orderly clock) d₂ cwd root source plan).result = .ok r' ∧ r.Alike r' ∧
      Leaves g ws d₂ (buildFileUntimed (.orderly clock) d₂ cwd root source plan).disk

/-- **A source that has been built can be built again, with the same result and the same
writes.** -/
theorem rebuilds {clock : Path → Nat → Nat} {d : Disk} {cwd root source : Path} {plan : Plan}
    {g : Location} {r : FileResult}
    (hcwd : cwd.IsResolved) (hsource : '/' ∉ source.name) (htree : d.IsTree)
    (hleads : Leads d cwd (root.child plan.generatedDir) g)
    (h : (buildFileUntimed (.orderly clock) d cwd root source plan).result = .ok r) :
    ∃ ws, Rebuilds cwd root source plan g ws d r
      (buildFileUntimed (.orderly clock) d cwd root source plan).disk := by
  cases hout : Path.output cwd source root plan.generatedDir plan.outputSuffix with
  | error f =>
    rw [buildFileUntimed, hout] at h
    cases h
  | ok out =>
    obtain ⟨folders, name, hshape, hbehind⟩ := behind_of_output hcwd hsource hleads hout
    obtain ⟨ws, hleaves, hown, hfailed, hagain⟩ :=
      compile_again plan.names hbehind htree hshape source plan.patience clock
    refine ⟨ws, ?_⟩
    rw [buildFileUntimed_disk hout]
    cases hresult : (compile (.orderly clock) d cwd source out plan.names plan.patience).result with
    | ok expansions =>
      rw [buildFileUntimed_of_ok hout hresult] at h
      cases h
      obtain ⟨hproper, hcontent⟩ := hown _ hresult
      refine ⟨rfl, hout, hleaves, fun h => absurd rfl h, fun _ => ⟨_, fun part hpart => ?_, hshape⟩,
        fun _ => hcontent, fun clock' d₂ htree₂ hgrows hread => ?_⟩
      · rcases List.mem_append.mp hpart with hpart | hpart
        · exact hbehind.folders part hpart
        · rw [List.mem_singleton.mp hpart]
          exact hproper
      obtain ⟨hoption, -, hleaves₂⟩ := hagain clock' d₂ htree₂ hgrows hread
      rw [hresult] at hoption
      have hresult₂ := eq_ok_of_toOption hoption
      rw [buildFileUntimed_disk hout]
      exact ⟨_, buildFileUntimed_of_ok hout hresult₂, ⟨rfl, rfl, rfl, rfl⟩, hleaves₂⟩
    | error f =>
      rw [buildFileUntimed_of_error hout hresult] at h
      split at h
      · rename_i hreported
        cases h
        refine ⟨rfl, hout, hleaves, fun _ => hfailed f hresult, nofun, nofun,
          fun clock' d₂ htree₂ hgrows hread => ?_⟩
        obtain ⟨-, hstanding, hleaves₂⟩ := hagain clock' d₂ htree₂ hgrows hread
        rw [hresult] at hstanding
        obtain ⟨f₂, hresult₂, hreported₂⟩ := eq_error_of_standing hstanding
        rw [buildFileUntimed_disk hout]
        exact ⟨_,
          (buildFileUntimed_of_error hout hresult₂).trans (if_pos (hreported₂.trans hreported)),
          ⟨rfl, rfl, rfl, rfl⟩, hleaves₂⟩
      · cases h

/-! ## 4. Runs -/

/-- A run of builds: each source has been built, one after the other.  The time that each took is
whatever the clock has said. -/
inductive Builds (system : System) (cwd root : Path) (s : Settings) :
    Disk → List Path → List FileResult → Disk → Prop where
  | nil (d : Disk) : Builds system cwd root s d [] [] d
  | cons {d d' : Disk} {source : Path} {rest : List Path} {plan : Plan} {r : FileResult}
      {rs : List FileResult} (duration : Duration) (hplan : Plan.ofSettings s = .ok plan)
      (hbuilt : (buildFileUntimed system d cwd root source plan).result = .ok r)
      (hrest :
        Builds system cwd root s (buildFileUntimed system d cwd root source plan).disk rest rs d') :
      Builds system cwd root s d (source :: rest) ({ r with duration := duration } :: rs) d'

section Clock

variable {σ : Type}

theorem run_bind_of_run {α β : Type} {x : StateM σ α} {c c₁ : σ} {a : α} (h : x.run c = (a, c₁))
    (f : α → StateM σ β) : (x >>= f).run c = (f a).run c₁ := by
  rw [StateT.run_bind, h]
  rfl

variable (now : StateM σ Duration) {system : System} {cwd root : Path} {s : Settings}

/-- The clock tells how long a build took, and nothing else depends on it. -/
theorem buildFile_run (system : System) (cwd root : Path) (d : Disk) (source : Path) (plan : Plan)
    (c : σ) :
    ∃ duration c', (buildFile now system d cwd root source plan).run c =
      ({ buildFileUntimed system d cwd root source plan with
          result := (buildFileUntimed system d cwd root source plan).result.map
            fun r => { r with duration := duration } }, c') := by
  obtain ⟨⟨start, c₁⟩, hstart⟩ : ∃ read, now.run c = read := ⟨_, rfl⟩
  obtain ⟨⟨stop, c₂⟩, hstop⟩ : ∃ read, now.run c₁ = read := ⟨_, rfl⟩
  unfold buildFile
  rw [run_bind_of_run hstart]
  cases hbuilt : buildFileUntimed system d cwd root source plan with
  | mk result disk log =>
    cases result with
    | error f => exact ⟨.zero, c₁, rfl⟩
    | ok r =>
      refine ⟨start.between stop, c₂, ?_⟩
      dsimp only
      rw [run_bind_of_run hstop]
      rfl

-- the parentheses keep this from being tried as an equation for `dsimp`, which takes long
theorem buildEach_cons (d : Disk) (source : Path) (rest : List Path) :
    buildEach now system d cwd root s (source :: rest) =
      (match Plan.ofSettings s with
      | .error f => return ⟨.error f, d, []⟩
      | .ok plan => do
        let built ← buildFile now system d cwd root source plan
        match built.result with
        | .error f => return ⟨.error f, built.disk, built.log⟩
        | .ok r =>
          let others ← buildEach now system built.disk cwd root s rest
          return ⟨others.result.map fun rs => r :: rs, others.disk, built.log ++ others.log⟩) :=
  (rfl)

/-- The first step of a build of several sources. -/
theorem buildEach_cons_run {d : Disk} {source : Path} {plan : Plan} {r : FileResult}
    (hplan : Plan.ofSettings s = .ok plan)
    (hbuilt : (buildFileUntimed system d cwd root source plan).result = .ok r) (rest : List Path)
    (c : σ) :
    ∃ (duration : Duration) (c₁ : σ) (log : List LogRecord),
      ((buildEach now system d cwd root s (source :: rest)).run c).1 =
        let built := buildFileUntimed system d cwd root source plan
        let others := ((buildEach now system built.disk cwd root s rest).run c₁).1
        ⟨others.result.map fun rs => { r with duration := duration } :: rs, others.disk,
          log ++ others.log⟩ := by
  obtain ⟨duration, c₁, hfile⟩ := buildFile_run now system cwd root d source plan c
  refine ⟨duration, c₁, (buildFileUntimed system d cwd root source plan).log, ?_⟩
  rw [buildEach_cons, hplan]
  dsimp only
  rw [run_bind_of_run hfile, hbuilt]
  rfl

/-- **What is built with a clock is a run.** -/
theorem builds_of_buildEach : ∀ {files : List Path} {d : Disk} {c : σ} {rs : List FileResult},
    ((buildEach now system d cwd root s files).run c).1.result = .ok rs →
    Builds system cwd root s d files rs ((buildEach now system d cwd root s files).run c).1.disk
  | [], d, c, rs, h => by
    cases h
    exact .nil d
  | source :: rest, d, c, rs, h => by
    cases hplan : Plan.ofSettings s with
    | error f =>
      rw [buildEach_cons, hplan] at h
      cases h
    | ok plan =>
      cases hbuilt : (buildFileUntimed system d cwd root source plan).result with
      | error f =>
        obtain ⟨duration, c₁, hfile⟩ := buildFile_run now system cwd root d source plan c
        rw [buildEach_cons, hplan] at h
        dsimp only at h
        rw [run_bind_of_run hfile, hbuilt] at h
        cases h
      | ok r =>
        obtain ⟨duration, c₁, log, hrun⟩ := buildEach_cons_run now hplan hbuilt rest c
        rw [hrun] at h ⊢
        dsimp only at h ⊢
        cases hrest : ((buildEach now system
            (buildFileUntimed system d cwd root source plan).disk cwd root s rest).run
              c₁).1.result with
        | error f =>
          rw [hrest] at h
          cases h
        | ok others =>
          rw [hrest] at h
          cases h
          exact .cons duration hplan hbuilt (builds_of_buildEach hrest)

/-- **A run can be made with any clock.** -/
theorem buildEach_of_builds {d d' : Disk} {files : List Path} {rs : List FileResult}
    (h : Builds system cwd root s d files rs d') : ∀ c : σ,
    ∃ rs', ((buildEach now system d cwd root s files).run c).1.result = .ok rs' ∧
      ((buildEach now system d cwd root s files).run c).1.disk = d' ∧
      List.Forall₂ FileResult.Alike rs rs' := by
  induction h with
  | nil d => exact fun c => ⟨[], rfl, rfl, .nil⟩
  | @cons d d' source rest plan r rs duration hplan hbuilt hrest ih =>
    intro c
    obtain ⟨duration', c₁, log, hrun⟩ := buildEach_cons_run now hplan hbuilt rest c
    obtain ⟨rs', hresult, hdisk, halike⟩ := ih c₁
    rw [hrun]
    dsimp only
    rw [hresult]
    exact ⟨_, rfl, hdisk, .cons ⟨rfl, rfl, rfl, rfl⟩ halike⟩

theorem buildFiles_run (system : System) (cwd root : Path) (s : Settings) (d : Disk)
    (files : List Path) (c : σ) :
    ∃ (c₁ : σ) (duration : Duration),
      let built := ((buildEach now system d cwd root s files).run c₁).1
      ((buildFiles now system d cwd root s files).run c).1 =
        ⟨built.result.map fun files => { files := files, duration := duration }, built.disk,
          built.log⟩ := by
  obtain ⟨⟨start, c₁⟩, hstart⟩ : ∃ read, now.run c = read := ⟨_, rfl⟩
  obtain ⟨⟨built, c₂⟩, hbuilt⟩ : ∃ run, (buildEach now system d cwd root s files).run c₁ = run :=
    ⟨_, rfl⟩
  obtain ⟨⟨stop, c₃⟩, hstop⟩ : ∃ read, now.run c₂ = read := ⟨_, rfl⟩
  refine ⟨c₁, start.between stop, ?_⟩
  dsimp only
  unfold buildFiles
  rw [run_bind_of_run hstart, run_bind_of_run hbuilt, hbuilt]
  cases hresult : built.result with
  | error f => rfl
  | ok results =>
    dsimp only
    rw [run_bind_of_run hstop]
    rfl

/-- A build of a project makes the generated directory, finds the sources and is a run. -/
theorem builds_of_buildAll {d : Disk} {c : σ} {report : BuildReport}
    (h : ((buildAll now system d cwd root s).run c).1.result = .ok report) :
    ∃ d₁ files, d.makeDirectories cwd (root.child s.generatedDir)
        (system.conditions (root.child s.generatedDir) 1) = (.ok (), d₁) ∧
      sources d₁ cwd root (.ofSettings s) system.scanning = .ok files ∧
      Builds system cwd root s d₁ files report.files
        ((buildAll now system d cwd root s).run c).1.disk := by
  unfold buildAll at h ⊢
  dsimp only at h ⊢
  obtain ⟨⟨made, d₁⟩, hmake⟩ :
    ∃ made, d.makeDirectories cwd (root.child s.generatedDir)
      (system.conditions (root.child s.generatedDir) 1) = made := ⟨_, rfl⟩
  rw [hmake] at h
  cases made with
  | error f => cases h
  | ok done =>
    dsimp only at h
    cases hsources : sources d₁ cwd root (.ofSettings s) system.scanning with
    | error f =>
      rw [hsources] at h
      cases h
    | ok files =>
      rw [hsources] at h
      dsimp only at h
      obtain ⟨c₁, duration, hrun⟩ := buildFiles_run now system cwd root s d₁ files c
      refine ⟨d₁, files, hmake, hsources, ?_⟩
      rw [hmake]
      dsimp only
      rw [hsources]
      dsimp only at hrun ⊢
      rw [hrun] at h ⊢
      cases hresult : ((buildEach now system d₁ cwd root s files).run c₁).1.result with
      | error f =>
        rw [hresult] at h
        cases h
      | ok results =>
        rw [hresult] at h
        cases h
        exact builds_of_buildEach now hresult

theorem buildAll_of_builds {d d₁ d' : Disk} {files : List Path} {rs : List FileResult}
    (hmake : d.makeDirectories cwd (root.child s.generatedDir)
      (system.conditions (root.child s.generatedDir) 1) = (.ok (), d₁))
    (hsources : sources d₁ cwd root (.ofSettings s) system.scanning = .ok files)
    (hbuilds : Builds system cwd root s d₁ files rs d') (c : σ) :
    ∃ report, ((buildAll now system d cwd root s).run c).1.result = .ok report ∧
      ((buildAll now system d cwd root s).run c).1.disk = d' ∧
      List.Forall₂ FileResult.Alike rs report.files := by
  obtain ⟨c₁, duration, hrun⟩ := buildFiles_run now system cwd root s d₁ files c
  obtain ⟨rs', hresult, hdisk, halike⟩ := buildEach_of_builds now hbuilds c₁
  unfold buildAll
  dsimp only
  rw [hmake]
  dsimp only
  rw [hsources]
  dsimp only at hrun ⊢
  rw [hrun, hresult]
  exact ⟨_, rfl, hdisk, halike⟩

end Clock

/-! ## 5. Runs again -/

theorem generatedDir_of_ofSettings {s : Settings} {plan : Plan} (h : Plan.ofSettings s = .ok plan) :
    plan.generatedDir = s.generatedDir ∧ plan.outputSuffix = s.outputSuffix ∧
      plan.names = s.names := by
  unfold Plan.ofSettings at h
  split at h
  · cases h
  · cases h
    exact ⟨rfl, rfl, rfl⟩

section Again

variable {clock : Path → Nat → Nat} {cwd root : Path} {s : Settings} {g : Location}
  (hcwd : cwd.IsResolved)

include hcwd

/-- **A run can be made again.**  It writes behind the generated directory only, and on any disk
that has grown since and is the same elsewhere it has the same results and makes the same writes,
whatever the clock reads. -/
theorem Builds.again {d d' : Disk} {files : List Path} {rs : List FileResult}
    (h : Builds (.orderly clock) cwd root s d files rs d') (htree : d.IsTree)
    (hleads : Leads d cwd (root.child s.generatedDir) g)
    (hfiles : ∀ source ∈ files, IsElsewhere g source) :
    ∃ ws, Leaves g ws d d' ∧ ∀ (clock' : Path → Nat → Nat) (d₂ : Disk), d₂.IsTree → Grows d' d₂ →
      (∀ k, ¬g <+: k → d₂.entry? k = d.entry? k) →
      ∃ rs' d₂', Builds (.orderly clock') cwd root s d₂ files rs' d₂' ∧
        List.Forall₂ FileResult.Alike rs rs' ∧ Leaves g ws d₂ d₂' := by
  induction h with
  | nil d =>
    exact ⟨[], .refl htree, fun _ d₂ htree₂ _ _ => ⟨[], d₂, .nil d₂, .nil, .refl htree₂⟩⟩
  | @cons d d' source rest plan r rs duration hplan hbuilt hrest ih =>
    have helsewhere := hfiles source List.mem_cons_self
    rw [← (generatedDir_of_ofSettings hplan).1] at hleads ih
    obtain ⟨ws, hstep⟩ := rebuilds hcwd helsewhere.resolved.noSlash htree hleads hbuilt
    have hleaves := hstep.leaves
    obtain ⟨ws', hleaves', hagain⟩ := ih hleaves.tree (hleads.grows hleaves.grows)
      fun p hp => hfiles p (List.mem_cons_of_mem source hp)
    refine ⟨ws ++ ws', hleaves.trans hleaves', fun clock' d₂ htree₂ hgrows hsame => ?_⟩
    obtain ⟨r', hbuilt₂, halike, hleaves₂⟩ := hstep.again clock' d₂ htree₂
      (hleaves'.grows.trans hgrows) (helsewhere.readText hsame cwd)
    obtain ⟨rs', d₂', hbuilds, halikes, hleaves₂'⟩ := hagain clock' _ hleaves₂.tree
      (hgrows.trans hleaves₂.grows) fun k hk => by
        rw [hleaves₂.outside k hk, hsame k hk, hleaves.outside k hk]
    exact ⟨_, d₂', .cons duration hplan hbuilt₂ hbuilds,
      .cons ⟨halike.source, halike.output, halike.expansions, halike.error⟩ halikes,
      hleaves₂.trans hleaves₂'⟩

/-- A project that has been built is ready to be built again: the generated directory is there, the
sources are the same, and a run over them leaves every file as it is. -/
theorem Builds.twice {d d' : Disk} {files : List Path} {rs : List FileResult} (htree : d.IsTree)
    (hleads : Leads d cwd (root.child s.generatedDir)
      (Path.resolvedParts cwd (root.child s.generatedDir)))
    (hroots : ∀ t ∈ s.sourceRoots, ¬Path.resolvedParts cwd (root.child s.generatedDir) <+:
      Path.resolvedParts cwd (root.child t))
    (hsources : sources d cwd root (.ofSettings s) = .ok files)
    (h : Builds (.orderly clock) cwd root s d files rs d') (clock' : Path → Nat → Nat) :
    (∀ k, ¬Path.resolvedParts cwd (root.child s.generatedDir) <+: k → d'.entry? k = d.entry? k) ∧
      d'.makeDirectories cwd (root.child s.generatedDir) = (.ok (), d') ∧
      sources d' cwd root (.ofSettings s) = .ok files ∧
      ∃ rs' d'', Builds (.orderly clock') cwd root s d' files rs' d'' ∧
        List.Forall₂ FileResult.Alike rs rs' ∧ d''.content? = d'.content? := by
  obtain ⟨ws, hleaves, hagain⟩ := h.again hcwd htree hleads fun source hsource =>
    isElsewhere_of_mem_sources (s := .ofSettings s) htree hsources hsource
  obtain ⟨rs', d'', hbuilds, halike, hleaves'⟩ :=
    hagain clock' d' hleaves.tree (.refl _) hleaves.outside
  refine ⟨hleaves.outside, Disk.makeDirectories_of_leads (hleads.grows hleaves.grows),
    sources_congr (s := .ofSettings s) hcwd htree hleaves.tree hleaves.outside hroots hsources,
    rs', d'', hbuilds, halike, ?_⟩
  rw [hleaves'.content, hleaves.content, Disk.foldl_overwrite_twice]

end Again

/-! ## 6. A project built twice -/

section Twice

variable {σ : Type} (now : StateM σ Duration) {d : Disk} {cwd root : Path} {s : Settings}
  {clock : Path → Nat → Nat}

/-- **A build stays in the generated directory, and building again changes nothing.**  When a
project has been built, every file outside the generated directory is as it was and no other has
come; and when it is built again, whatever the clocks say, the same sources have the same results in
the same order, and every file is left as it was left before.  The system refuses nothing but what
the disk does not allow. -/
theorem buildAll_twice (htree : d.IsTree) (hcwd : cwd.IsResolved)
    (hroots : ∀ t ∈ s.sourceRoots, (Path.resolve cwd (root.child t)).isUnder
      (Path.resolve cwd (root.child s.generatedDir)) = false) {c : σ} {report : BuildReport}
    (h : ((buildAll now (.orderly clock) d cwd root s).run c).1.result = .ok report)
    (clock' : Path → Nat → Nat) (c' : σ) :
    let built := ((buildAll now (.orderly clock) d cwd root s).run c).1.disk
    let again := ((buildAll now (.orderly clock') built cwd root s).run c').1
    (∀ l, ¬Path.resolvedParts cwd (root.child s.generatedDir) <+: l →
      built.content? l = d.content? l) ∧
    (∃ report', again.result = .ok report' ∧
      List.Forall₂ FileResult.Alike report.files report'.files) ∧
    ∀ l, again.disk.content? l = built.content? l := by
  obtain ⟨d₁, files, hmake, hsources, hbuilds⟩ := builds_of_buildAll now h
  have hmade := Disk.made_makeDirectories cwd _ d hmake
  have hroots' : ∀ t ∈ s.sourceRoots, ¬Path.resolvedParts cwd (root.child s.generatedDir) <+:
      Path.resolvedParts cwd (root.child t) := by
    intro t ht hunder
    have houtside := hroots t ht
    rw [(Path.isUnder_resolve_iff rfl).mpr hunder] at houtside
    cases houtside
  obtain ⟨houtside, hmake', hsources', rs', d₂, hbuilds', halike, hcontent⟩ :=
    hbuilds.twice hcwd (hmade.tree htree) (hmade.leads rfl) hroots' hsources clock'
  dsimp only
  generalize ((buildAll now (.orderly clock) d cwd root s).run c).1.disk = built at *
  obtain ⟨report', hresult, hdisk, halike'⟩ := buildAll_of_builds now hmake' hsources' hbuilds' c'
  refine ⟨fun l hl => ?_, ⟨report', hresult, alike_trans halike halike'⟩, fun l => ?_⟩
  · rw [Disk.content?_congr (houtside l hl), hmade.paved.content?]
  · rw [hdisk, hcontent]

end Twice

/-- A project with one source that has not been built. -/
def unbuilt : Disk :=
  ⟨[(["p"], .directory), (["p", "V.xcs"], .file (Utf8.encode "x = (<b/>);"))]⟩

theorem buildAll_twice_unbuilt :
    let now : StateM Unit Duration := pure .zero
    let build := fun d : Disk =>
      ((buildAll now (.orderly fun _ _ => 0) d ⟨.root, []⟩ ⟨.root, ["p"]⟩ {}).run ()).1
    (∃ report, (build unbuilt).result = .ok report) ∧
      ∀ l, (build (build unbuilt).disk).disk.content? l = (build unbuilt).disk.content? l := by
  intro now build
  have hok : (build unbuilt).result.isOk = true := by decide +kernel
  obtain ⟨report, hreport⟩ : ∃ report, (build unbuilt).result = .ok report := by
    cases hresult : (build unbuilt).result with
    | error f =>
      rw [hresult] at hok
      cases hok
    | ok report => exact ⟨report, rfl⟩
  exact ⟨⟨report, hreport⟩,
    (buildAll_twice now (by decide) (by decide) (by decide) hreport _ ()).2.2⟩

end Project

end InlineMarkup
