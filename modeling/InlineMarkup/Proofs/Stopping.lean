import InlineMarkup.Proofs.Collisions

/-!
# What stops a build

A source that cannot be read or written is reported, and the build goes on.  What stops a build is
that the output of a source has no possible name, that a path is none for a disk, or that a pause
between attempts cannot be counted.  None of this is the fault of a source.  Sources are on a disk,
so their own paths are all right (`noNul_output`); what their outputs are called is up to the
suffix, and how long the pauses are to the delay.  So if the settings are steady (`IsSteady`), every
source that has been found is built or reported, whatever has become of the disk since, and the
report of a build has one entry for each (`build_goes_on`).

Not all settings that are accepted are steady.  A suffix has to start with a dot, but it may go on
with a slash and a name, and then there is no name for any output.
-/

namespace InlineMarkup

namespace Path

/-! ## 1. Paths without a NUL -/

/-- Following brings in no names. -/
theorem mem_of_mem_foldl_follow {name : Text} : ∀ {steps reversed : List Text},
    name ∈ steps.foldl follow reversed → name ∈ steps ∨ name ∈ reversed
  | [], _, h => Or.inr h
  | step :: steps, reversed, h => by
    rw [List.foldl_cons] at h
    rcases mem_of_mem_foldl_follow h with h | h
    · exact Or.inl (List.mem_cons_of_mem step h)
    · unfold follow at h
      split at h
      · exact Or.inr h
      · split at h
        · exact Or.inr (List.mem_of_mem_tail h)
        · rcases List.mem_cons.mp h with rfl | h
          · exact Or.inl List.mem_cons_self
          · exact Or.inr h

theorem noNul_resolvedParts {cwd p : Path} (hcwd : cwd.holdsNul = false) (hp : p.holdsNul = false) :
    ∀ name ∈ resolvedParts cwd p, nul ∉ name := by
  intro name hname hnul
  rw [holdsNul_eq_false_iff] at hcwd hp
  rw [resolvedParts, List.mem_reverse] at hname
  rcases mem_of_mem_foldl_follow hname with hname | hname
  · obtain ⟨part, hpart, hpiece⟩ := List.mem_flatMap.mp hname
    exact hp part hpart (Text.mem_of_mem_splitAt hpiece hnul)
  · split at hname
    · exact absurd hname List.not_mem_nil
    · exact hcwd name (List.mem_reverse.mp hname) hnul

theorem holdsNul_parent {p : Path} (h : p.holdsNul = false) : p.parent.holdsNul = false := by
  rw [holdsNul_eq_false_iff] at h ⊢
  exact fun part hpart => h part (List.mem_of_mem_dropLast hpart)

theorem noNul_name {p : Path} (h : p.holdsNul = false) : nul ∉ p.name := by
  by_cases hne : p.name = []
  · rw [hne]
    exact List.not_mem_nil
  · refine holdsNul_eq_false_iff.mp h _ ?_
    rw [parts_of_name_ne_nil hne]
    simp

theorem noNul_suffix {p : Path} (h : p.holdsNul = false) : nul ∉ p.suffix := by
  unfold suffix
  split
  · exact fun hmem => noNul_name h (List.mem_of_mem_drop hmem)
  · exact List.not_mem_nil

/-! ## 2. Suffixes that make names -/

/-- The suffix makes a name out of every stem. -/
def MakesNames (suffix : Text) : Prop :=
  ∀ stem : Text, stem ≠ [] → '/' ∉ stem → isName (stem ++ suffix) = true

/-- The parts of a suffix that would stand behind the name. -/
def partsBehind (suffix : Text) : List Text :=
  (Text.splitAt '/' suffix).tail.filter fun part => !(part.isEmpty || part == here)

/-- **Whether a suffix that starts with a dot makes a name does not depend on the stem.** -/
theorem isName_append {stem suffix : Text} (hstem : stem ≠ []) (hslash : '/' ∉ stem)
    (hdot : Text.startsWith suffix "." = true) :
    isName (stem ++ suffix) = ((partsBehind suffix).isEmpty && suffix.getLast? != some '/') := by
  obtain ⟨piece, pieces, hsplit, hparts⟩ := partsOf_append hstem hslash hdot
  have hrelative : (ofText (stem ++ suffix)).isAbsolute = false := by
    cases stem with
    | nil => exact absurd rfl hstem
    | cons c stem =>
      have hc : (c == '/') = false := by
        rw [beq_eq_false_iff_ne]
        rintro rfl
        exact hslash List.mem_cons_self
      rw [List.cons_append, isAbsolute, ofText, anchorOf, List.takeWhile_cons, hc]
      rfl
  have hlast : (stem ++ suffix).getLast? = suffix.getLast? := by
    obtain ⟨rest, rfl⟩ := exists_of_startsWith_dot hdot
    exact List.getLast?_append_of_ne_nil stem (List.cons_ne_nil '.' rest)
  rw [isName, hrelative, hlast, hparts, List.length_cons, partsBehind, hsplit, List.tail_cons]
  cases pieces.filter fun part => !(part.isEmpty || part == here) <;> simp

theorem makesNames_of_noSlash {suffix : Text} (hdot : Text.startsWith suffix "." = true)
    (h : '/' ∉ suffix) : MakesNames suffix := by
  intro stem hstem hslash
  rw [isName_append hstem hslash hdot, partsBehind, Text.splitAt_of_notMem h]
  have hlast : suffix.getLast? ≠ some '/' := fun hlast => h (List.mem_of_getLast? hlast)
  simpa using hlast

/-- A suffix that does not make a name out of some stem makes it out of none. -/
theorem isName_of_not_makesNames {suffix : Text} (hdot : Text.startsWith suffix "." = true)
    (h : ¬MakesNames suffix) {stem : Text} (hstem : stem ≠ []) (hslash : '/' ∉ stem) :
    isName (stem ++ suffix) = false := by
  rw [Bool.eq_false_iff]
  intro hname
  refine h fun stem' hstem' hslash' => ?_
  rwa [isName_append hstem' hslash' hdot, ← isName_append hstem hslash hdot]

/-! ## 3. Outputs -/

section Output

variable {cwd source root : Path} (generated : Text) {suffix : Text} (hcwd : cwd.IsResolved)
  (hslash : '/' ∉ source.name) (hname : (within cwd source root).name ≠ [])

include hcwd hslash hname

theorem output_of_makesNames (h : MakesNames suffix) :
    ∃ out, output cwd source root generated suffix = .ok out := by
  have hwithin := isWithin_within hcwd hslash root
  have hisName := h _ (stem_ne_nil hname) fun hmem => hwithin.noSlash ((stem_sublist _).subset hmem)
  rw [output_eq, outputRelative, withName, if_neg (by simpa using hname), if_pos hisName]
  exact ⟨_, rfl⟩

theorem output_of_not_makesNames (hdot : Text.startsWith suffix "." = true)
    (h : ¬MakesNames suffix) : output cwd source root generated suffix =
      .error (.invalidName ((within cwd source root).stem ++ suffix)) := by
  have hwithin := isWithin_within hcwd hslash root
  have hisName := isName_of_not_makesNames hdot h (stem_ne_nil hname) fun hmem =>
    hwithin.noSlash ((stem_sublist _).subset hmem)
  rw [output_eq, outputRelative, withName, if_neg (by simpa using hname), hisName]
  rfl

end Output

theorem noNul_within {cwd source : Path} (root : Path) (hcwd : cwd.holdsNul = false)
    (hsource : source.holdsNul = false) : ∀ part ∈ (within cwd source root).parts, nul ∉ part := by
  intro part hpart
  unfold within at hpart
  cases hseen : seenFrom? cwd source root with
  | some relative =>
    rw [hseen, Option.getD_some] at hpart
    refine noNul_resolvedParts hcwd hsource part ?_
    rw [(parts_of_seenFrom? hseen).2]
    exact List.mem_append_right _ hpart
  | none =>
    rw [hseen, Option.getD_none, ofText, partsOf] at hpart
    have hpiece := (List.mem_filter.mp hpart).1
    exact fun hnul => noNul_name hsource (Text.mem_of_mem_splitAt hpiece hnul)

/-- **An output holds no NUL**, if neither its source, the directory it goes to nor its suffix
does. -/
theorem noNul_output {cwd source root out : Path} {generated suffix : Text} (hcwd : cwd.IsResolved)
    (hcwd' : cwd.holdsNul = false) (hslash : '/' ∉ source.name) (hsource : source.holdsNul = false)
    (hgenerated : (root.child generated).holdsNul = false) (hsuffix : nul ∉ suffix)
    (h : output cwd source root generated suffix = .ok out) : out.holdsNul = false := by
  obtain ⟨name, hparts, hne, rfl⟩ := eq_of_output hcwd hslash h
  have hwithin := noNul_within root hcwd' hsource
  rw [holdsNul_eq_false_iff] at hgenerated ⊢
  intro part hpart
  rcases List.mem_append.mp hpart with hpart | hpart
  · exact hgenerated part hpart
  rcases List.mem_append.mp hpart with hpart | hpart
  · exact hwithin part (List.mem_of_mem_dropLast hpart)
  rw [List.mem_singleton.mp hpart]
  intro hnul
  have hpiece : name ∈ Text.splitAt '/' ((within cwd source root).stem ++ suffix) := by
    have hmem : name ∈ partsOf ((within cwd source root).stem ++ suffix) := by
      rw [hparts]
      exact List.mem_singleton_self name
    exact (List.mem_filter.mp hmem).1
  rcases List.mem_append.mp (Text.mem_of_mem_splitAt hpiece hnul) with hnul | hnul
  · refine hwithin _ ?_ ((stem_sublist _).subset hnul)
    rw [parts_of_name_ne_nil hne]
    simp
  · exact hsuffix hnul

end Path

/-! ## 4. Files -/

namespace Disk

variable {d : Disk} {cwd p : Path}

theorem find_ne_embeddedNul (h : p.holdsNul = false) : d.find cwd p ≠ .error .embeddedNul := by
  unfold find locate
  cases hrefusal : refusal? p with
  | some reason =>
    rcases refusal?_cases hrefusal with ⟨-, hnul⟩ | rfl
    · rw [h] at hnul
      cases hnul
    · intro heq
      cases heq
  | none =>
    have hfollow := follow_ne_embeddedNul d (steps p) (startOf cwd p)
    dsimp only
    cases hm : Disk.follow d (startOf cwd p) (steps p) with
    | error reason =>
      rw [hm] at hfollow
      simpa [bind, Except.bind] using hfollow
    | ok l =>
      simp only [bind, Except.bind]
      split
      · exact nofun
      · exact nofun

/-- Only a path that holds a NUL cannot have its directories made for it. -/
theorem makeDirectories_ne_embeddedNul (cwd : Path) (c : Conditions) :
    ∀ (p : Path) (d : Disk) {f : Fault} {d' : Disk}, p.holdsNul = false →
      d.makeDirectories cwd p c = (.error f, d') → f.reason ≠ .embeddedNul := by
  intro p d f d' hnul h
  have haccept : ∀ {d d' : Disk} {reason : Reason} {refusal refusal' : Option Refusal},
      d.makeDirectory cwd p refusal = .error reason →
      d.acceptDirectory cwd p reason refusal' = (.error f, d') → f.reason ≠ .embeddedNul := by
    intro d d' reason refusal refusal' hmake haccept hreason
    rcases (acceptDirectory_cases haccept).2.2 f rfl with heq | heq | ⟨given, heq⟩
    · exact makeDirectory_ne_embeddedNul hnul refusal (by rw [hmake, ← heq, hreason])
    · rw [heq] at hreason
      cases hreason
    · rw [heq] at hreason
      cases hreason
  rw [makeDirectories] at h
  split at h
  · cases h
  · split at h
    · cases h
      intro heq
      cases heq
    · rename_i hne
      have hlt : p.parent.parts.length < p.parts.length := by
        have := List.length_pos_iff.mpr hne
        rw [Path.parent, List.length_dropLast]
        omega
      split at h
      · rename_i habove
        cases h
        exact makeDirectories_ne_embeddedNul cwd c p.parent d (Path.holdsNul_parent hnul) habove
      · split at h
        · cases h
        · cases h
          intro heq
          cases heq
        · rename_i reason hmake hother
          exact haccept hother h
  · rename_i reason hmake hother
    exact haccept hother h
termination_by p => p.parts.length

theorem replaceBy_ne_embeddedNul (h : p.holdsNul = false) (file : Location) (bytes : List UInt8) :
    d.replaceBy cwd file bytes p ≠ .error .embeddedNul := by
  have hplace : d.place cwd p ≠ .error .embeddedNul := place_ne_embeddedNul h
  unfold replaceBy
  split
  · rename_i reason hreason
    intro heq
    cases heq
    exact hplace hreason
  · exact nofun
  · split
    · exact nofun
    · exact nofun

theorem noNul_temporary {suffix : Text} (h : Path.nul ∉ suffix) :
    Path.nul ∉ temporary suffix 0 := by
  have hstem : Path.nul ∉ temporaryStem ++ eightDigits 0 := by decide +kernel
  rw [temporary, List.mem_append]
  exact not_or.mpr ⟨hstem, h⟩

theorem fillAndMove_ne_embeddedNul (h : p.holdsNul = false) {file : Path} {bytes : List UInt8}
    {c : Conditions} {f : Fault} {d' : Disk}
    (hmove : d.fillAndMove cwd file bytes p c = (.error (.disk f), d')) :
    f.reason ≠ .embeddedNul := by
  unfold fillAndMove at hmove
  split at hmove
  · cases hmove
  · dsimp only at hmove
    split at hmove
    · cases hmove
      exact nofun
    · split at hmove
      · cases hmove
      · rename_i reason hreplace
        cases hmove
        intro heq
        dsimp only at heq
        exact replaceBy_ne_embeddedNul h _ _ (heq ▸ hreplace)

/-- A text is not refused a file for a NUL, if neither the path nor the current directory holds
one. -/
theorem putText_ne_embeddedNul (hcwd : cwd.holdsNul = false) (h : p.holdsNul = false) {t : Text}
    {c : Conditions} {f : Fault} {d' : Disk} (hput : d.putText cwd p t c = (.error (.disk f), d')) :
    f.reason ≠ .embeddedNul := by
  have hfirst : (named (Path.absolute cwd p.parent) (temporary p.suffix 0)).holdsNul = false := by
    rw [Path.holdsNul_eq_false_iff]
    intro part hpart
    rcases List.mem_append.mp hpart with hpart | hpart
    · exact Path.noNul_resolvedParts hcwd (Path.holdsNul_parent h) part hpart
    · rw [List.mem_singleton.mp hpart]
      exact noNul_temporary (Path.noNul_suffix h)
  unfold putText at hput
  dsimp only at hput
  split at hput
  · cases hput
    exact nofun
  · split at hput
    · rename_i reason hplace
      cases hput
      intro heq
      dsimp only at heq
      exact place_ne_embeddedNul hfirst (heq ▸ hplace)
    · unfold removeNew at hput
      split at hput
      · cases hput
        exact nofun
      · split at hput
        · cases hput
        · rename_i hmove
          cases hput
          exact fillAndMove_ne_embeddedNul h hmove

end Disk

namespace Project

open Disk (FileFault)

/-- What is wrong with reading a file is reported. -/
theorem isReported_readText {d : Disk} {cwd p : Path} {c : Disk.Conditions} {f : FileFault}
    (h : p.holdsNul = false) (hf : d.readText cwd p c = .error f) :
    (FileError.file f).isReported = true := by
  have hfind : d.find cwd p ≠ .error .embeddedNul := Disk.find_ne_embeddedNul h
  unfold Disk.readText Disk.readBytes at hf
  split at hf
  · cases hf
    rfl
  · cases hfound : d.find cwd p with
    | error reason =>
      rw [hfound] at hf hfind
      cases hf
      exact bne_iff_ne.mpr fun heq => hfind (congrArg Except.error heq)
    | ok e =>
      rw [hfound] at hf
      cases e with
      | directory =>
        cases hf
        rfl
      | file bytes =>
        dsimp only at hf
        split at hf
        · cases hf
          rfl
        · split at hf
          · cases hf
            rfl
          · cases hf

/-- What is wrong with writing a file is reported. -/
theorem isReported_writeText {d : Disk} {cwd p : Path} {t : Text} {c : Disk.Conditions}
    {f : FileFault} (hcwd : cwd.holdsNul = false) (h : p.holdsNul = false)
    (hf : (d.writeText cwd p t c).1 = .error f) : (FileError.file f).isReported = true := by
  cases f with
  | undecodable f => rfl
  | stream r => rfl
  | disk f =>
    refine bne_iff_ne.mpr ?_
    unfold Disk.writeText at hf
    split at hf
    · rename_i f' d₁ hmake
      cases hf
      exact Disk.makeDirectories_ne_embeddedNul cwd c _ d (Path.holdsNul_parent h) hmake
    · exact Disk.putText_ne_embeddedNul hcwd h (Prod.ext hf rfl)

/-! ## 5. Retries -/

/-- The pauses between attempts can be counted. -/
def Patience.IsCountable (patience : Patience) : Prop := patience.delay.isUncountable = false

/-- **Work that fails, fails as one attempt does or for want of a pause**, so it is reported if the
faults of attempts are. -/
theorem isReported_of_withRetries {α : Type} {system : System} {name : Text} {p : Path}
    {patience : Patience} {operation : Disk.Conditions → Disk → Except FileFault α × Disk}
    {d : Disk} {e : FileError} (hpauses : patience.IsCountable)
    (hstep : ∀ c d f, (operation c d).1 = .error f → (FileError.file f).isReported = true)
    (h : (withRetries system name p patience operation d).result = .error e) :
    e.isReported = true := by
  have hends : ∀ e, (((retrying system p patience.delay operation).start patience.retries
      (0, d)).ending.result .unreachable) = .error e → e.isReported = true := by
    refine Retry.start_ending (r := retrying system p patience.delay operation)
      (Q := fun _ => True)
      (P := fun ending => ∀ e, ending.result .unreachable = .error e → e.isReported = true)
      (fun w _ => ⟨trivial, fun e he => ?_⟩) (fun w _ _ e' hpause e he => ?_) patience.retries
      (s := (0, d)) trivial
    · have hfault := hstep (system.conditions p (w.1 + 1)) w.2
      have hop : ((retrying system p patience.delay operation).operation w).1 =
        (operation (system.conditions p (w.1 + 1)) w.2).1.mapError .file := rfl
      rw [hop] at he
      generalize (operation (system.conditions p (w.1 + 1)) w.2).1 = r at hfault he
      cases r with
      | ok a => cases he
      | error f =>
        cases he
        exact hfault f rfl
    · cases he
      exact isReported_of_pause hpauses hpause
  exact hends e h

/-! ## 6. One source, and all of them -/

/-- **Whatever goes wrong on the way from a source to its output is reported.** -/
theorem isReported_compile {system : System} {d : Disk} {cwd source output : Path} {names : Names}
    {patience : Patience} {e : FileError} (hcwd : cwd.holdsNul = false)
    (hsource : source.holdsNul = false) (houtput : output.holdsNul = false)
    (hpauses : patience.IsCountable)
    (h : (compile system d cwd source output names patience).result = .error e) :
    e.isReported = true := by
  cases hfetch : (fetchText system d cwd source patience).result with
  | error f =>
    rw [(compile_of_error output names hfetch).1] at h
    cases h
    exact isReported_of_withRetries hpauses (fun c d f hf => isReported_readText hsource hf) hfetch
  | ok t =>
    rw [(compile_of_ok output names hfetch).1] at h
    cases hstore : (storeText system d cwd output (expand names t).text patience).result with
    | ok done =>
      rw [hstore] at h
      cases h
    | error f =>
      rw [hstore] at h
      cases h
      exact isReported_of_withRetries hpauses (fun c d f hf => isReported_writeText hcwd houtput hf)
        hstore

/-- A source that is on a disk, where nothing but a directory stands at the root. -/
structure IsFound (cwd root source : Path) : Prop where
  noSlash : '/' ∉ source.name
  noNul : source.holdsNul = false
  named : (Path.within cwd source root).name ≠ []

theorem isFound_of_mem_sources {d : Disk} {cwd root source : Path} {s : Search}
    {scanning : Path → Option Disk.Fault} {files : List Path} (htree : d.IsTree)
    (hroot : d.content? (Path.resolvedParts cwd root) = none)
    (h : sources d cwd root s scanning = .ok files) (hsource : source ∈ files) :
    IsFound cwd root source := by
  obtain ⟨hanchor, ⟨bytes, hfile⟩, -⟩ := (mem_sources_iff htree h).mp hsource
  have hresolved := htree.isResolved_of_found hfile
  refine ⟨hresolved.noSlash, htree.holdsNul_of_found hfile, ?_⟩
  -- the last of some proper names is not empty
  have hlast : ∀ names : List Text, names ≠ [] → (∀ name ∈ names, Path.IsProper name) →
      names.getLastD [] ≠ [] := by
    intro names hne hproper
    rw [List.getLastD_eq_getLast?, List.getLast?_eq_some_getLast hne]
    exact (hproper _ (List.getLast_mem hne)).ne_nil
  have hparts := Path.resolvedParts_of_isResolved cwd hanchor hresolved
  unfold Path.within
  cases hseen : Path.seenFrom? cwd source root with
  | some relative =>
    have happend := (Path.parts_of_seenFrom? hseen).2
    rw [hparts] at happend
    refine hlast relative.parts (fun hnil => ?_) fun name hname => hresolved name ?_
    · rw [hnil, List.append_nil] at happend
      rw [← happend, Disk.content?_eq_some_iff.mpr hfile] at hroot
      cases hroot
    · rw [happend]
      exact List.mem_append_right _ hname
  | none =>
    have hname : source.name ≠ [] := by
      refine hlast source.parts (fun hnil => ?_) hresolved
      rw [hnil] at hfile
      cases hfile
    rw [Option.getD_none, Path.ofText, (hresolved.isProper_name hname).partsOf]
    exact hname

/-- Nothing in the settings can stop a build: outputs have names and hold no NUL, and pauses between
attempts can be counted. -/
structure IsSteady (s : Settings) : Prop where
  names : Path.MakesNames s.outputSuffix
  noNul : Path.nul ∉ s.outputSuffix
  pauses : ∃ plan, Plan.ofSettings s = .ok plan ∧ plan.patience.IsCountable

section Sources

variable {cwd root source : Path} {s : Settings} {plan : Plan}

/-- **A source of steady settings is built or reported, whatever the disk and the system.** -/
theorem buildFileUntimed_of_isSteady (hcwd : cwd.IsResolved) (hcwd' : cwd.holdsNul = false)
    (hgenerated : (root.child s.generatedDir).holdsNul = false) (hs : IsSteady s)
    (hplan : Plan.ofSettings s = .ok plan) (hsource : IsFound cwd root source) (system : System)
    (d : Disk) : ∃ r, (buildFileUntimed system d cwd root source plan).result = .ok r := by
  obtain ⟨plan', hplan', hpauses⟩ := hs.pauses
  obtain rfl : plan' = plan := Except.ok.inj (hplan'.symm.trans hplan)
  obtain ⟨hdir, hsuffix, -⟩ := generatedDir_of_ofSettings hplan
  obtain ⟨out, hout⟩ := Path.output_of_makesNames s.generatedDir hcwd hsource.noSlash
    hsource.named hs.names
  have hnul := Path.noNul_output hcwd hcwd' hsource.noSlash hsource.noNul hgenerated hs.noNul hout
  rw [← hdir, ← hsuffix] at hout
  cases hresult : (compile system d cwd source out plan'.names plan'.patience).result with
  | ok expansions => exact ⟨_, buildFileUntimed_of_ok hout hresult⟩
  | error e =>
    have hreported := isReported_compile hcwd' hsource.noNul hnul hpauses hresult
    exact ⟨_, (buildFileUntimed_of_error hout hresult).trans (if_pos hreported)⟩

theorem builds_of_isSteady (hcwd : cwd.IsResolved) (hcwd' : cwd.holdsNul = false)
    (hgenerated : (root.child s.generatedDir).holdsNul = false) (hs : IsSteady s)
    (system : System) : ∀ {files : List Path}, (∀ source ∈ files, IsFound cwd root source) →
      ∀ d : Disk, ∃ rs d', Builds system cwd root s d files rs d'
  | [], _, d => ⟨[], d, .nil d⟩
  | source :: rest, hfiles, d => by
    obtain ⟨plan, hplan, -⟩ := hs.pauses
    obtain ⟨r, hbuilt⟩ := buildFileUntimed_of_isSteady hcwd hcwd' hgenerated hs hplan
      (hfiles source List.mem_cons_self) system d
    obtain ⟨rs, d', hrest⟩ := builds_of_isSteady hcwd hcwd' hgenerated hs system
      (fun p hp => hfiles p (List.mem_cons_of_mem source hp))
      (buildFileUntimed system d cwd root source plan).disk
    exact ⟨_, d', .cons .zero hplan hbuilt hrest⟩

end Sources

/-- **No source stops a build, if the settings are steady.**  Every source that has been found is
then built or reported, on whatever disk and whatever the system refuses, and a build of all sources
has one result for each, in their order.  If the suffix of outputs makes no names, though, every
source stops the build. -/
theorem build_goes_on {σ : Type} (now : StateM σ Duration) {d₀ d : Disk} {cwd root : Path}
    {directory file : Option Path} {s : Settings} {scanning : Path → Option Disk.Fault}
    {files : List Path} (hload : loadSettings d₀ cwd directory file = .ok s) (htree : d.IsTree)
    (hcwd : d.entry? cwd.parts = some .directory)
    (hroot : d.content? (Path.resolvedParts cwd root) = none)
    (hfiles : sources d cwd root (.ofSettings s) scanning = .ok files) :
    (IsSteady s → ∀ (system : System) (d' : Disk) (c : σ),
      (∃ plan, Plan.ofSettings s = .ok plan ∧ ∀ source ∈ files,
        ∃ r, ((buildFile now system d' cwd root source plan).run c).1.result = .ok r ∧
          r.source = source) ∧
      ∃ report, ((buildFiles now system d' cwd root s files).run c).1.result = .ok report ∧
        report.files.map FileResult.source = files) ∧
    (¬Path.MakesNames s.outputSuffix → ∀ plan, Plan.ofSettings s = .ok plan →
      ∀ source ∈ files, ∀ (system : System) (d' : Disk) (c : σ),
        ((buildFile now system d' cwd root source plan).run c).1.result =
          .error (.outputName
            (.invalidName ((Path.within cwd source root).stem ++ s.outputSuffix)))) := by
  obtain ⟨-, hdot, -⟩ := suffixes_of_check (check_of_loadSettings hload)
  have hresolved := htree.isResolved_of_found hcwd
  have hnul := htree.holdsNul_of_found hcwd
  obtain ⟨-, -, hgenerated, -⟩ := sources_eq_ok hfiles
  have hfound : ∀ source ∈ files, IsFound cwd root source := fun source hsource =>
    isFound_of_mem_sources htree hroot hfiles hsource
  constructor
  · intro hs system d' c
    constructor
    · obtain ⟨plan, hplan, -⟩ := hs.pauses
      refine ⟨plan, hplan, fun source hsource => ?_⟩
      obtain ⟨r, hr⟩ := buildFileUntimed_of_isSteady hresolved hnul hgenerated hs hplan
        (hfound source hsource) system d'
      obtain ⟨duration, c', hrun⟩ := buildFile_run now system cwd root d' source plan c
      have hsame : r.source = source := source_of_buildFileUntimed hr
      rw [hrun, hr]
      exact ⟨_, rfl, hsame⟩
    · obtain ⟨rs, d₂, hbuilds⟩ := builds_of_isSteady hresolved hnul hgenerated hs system hfound d'
      obtain ⟨c₁, duration, hrun⟩ := buildFiles_run now system cwd root s d' files c
      obtain ⟨rs', hresult, -, -⟩ := buildEach_of_builds now hbuilds c₁
      have hsources := (builds_of_buildEach now hresult).map_source
      dsimp only at hrun
      rw [hrun, hresult]
      exact ⟨_, rfl, hsources⟩
  · intro hnames plan hplan source hsource system d' c
    obtain ⟨hdir, hsuffix, -⟩ := generatedDir_of_ofSettings hplan
    have hout := Path.output_of_not_makesNames s.generatedDir hresolved
      (hfound source hsource).noSlash (hfound source hsource).named hdot hnames
    obtain ⟨duration, c', hrun⟩ := buildFile_run now system cwd root d' source plan c
    rw [hrun, buildFileUntimed, hdir, hsuffix, hout]
    rfl

/-- A project in `/p` with these settings and one source, and a directory where the output is to be
if it ends in `.g.cs`. -/
def projectWith (settings : Text) : Disk :=
  ⟨[(["p"], .directory), (["p", "tagweave.toml"], .file (Utf8.encode settings)),
    (["p", "V.xcs"], .file (Utf8.encode "x = (<b/>);")), (["p", "Generated"], .directory),
    (["p", "Generated", "V.g.cs"], .directory)]⟩

/-- A build goes on where a directory is in the way and no new file can be made. -/
theorem build_goes_on_obstructed :
    let now : StateM Unit Duration := pure .zero
    let system : System :=
      { conditions := fun _ _ => { creating := some ⟨13, "Permission denied", by decide⟩ } }
    let source : Path := ⟨.root, ["p", "V.xcs"]⟩
    (∃ report, ((buildFiles now system (projectWith "") ⟨.root, []⟩ ⟨.root, ["p"]⟩ {}
        [source]).run ()).1.result = .ok report ∧ report.files.map FileResult.source = [source]) ∧
      ((buildFile now system unbuilt ⟨.root, []⟩ ⟨.root, ["p"]⟩ source
        { outputSuffix := "./x" }).run ()).1.result =
      .error (.outputName (.invalidName "V./x")) := by
  intro now system source
  constructor
  · have hload : loadSettings (projectWith "") ⟨.root, []⟩ (some ⟨.root, ["p"]⟩) none = .ok {} := by
      decide +kernel
    have hsteady : IsSteady {} :=
      ⟨Path.makesNames_of_noSlash (by decide) (by decide), by decide, {}, by decide +kernel,
        by unfold Patience.IsCountable; decide +kernel⟩
    have hfiles : sources (projectWith "") ⟨.root, []⟩ ⟨.root, ["p"]⟩ (.ofSettings {}) =
        .ok [source] := by
      decide +kernel
    exact ((build_goes_on now hload (by decide) rfl (by decide +kernel) hfiles).1 hsteady system
      (projectWith "") ()).2
  · let settings : Text := "[paths]\noutput_suffix = \"./x\""
    have hload : loadSettings (projectWith settings) ⟨.root, []⟩ (some ⟨.root, ["p"]⟩) none =
        .ok { outputSuffix := "./x" } := by
      decide +kernel
    have hnames : ¬Path.MakesNames "./x" := fun h =>
      absurd (h "V" (by decide) (by decide)) (by decide +kernel)
    have hfiles : sources (projectWith settings) ⟨.root, []⟩ ⟨.root, ["p"]⟩
        (.ofSettings { outputSuffix := "./x" }) = .ok [source] := by
      decide +kernel
    exact (build_goes_on now hload (by decide +kernel) rfl (by decide +kernel) hfiles).2 hnames _
      (by decide +kernel) source (List.mem_singleton_self source) system unbuilt ()

/-- What stops a build of the project with these settings, if they are accepted and something
does. -/
def stoppedBy (settings : Text) : Option Failure :=
  match loadSettings (projectWith settings) ⟨.root, []⟩ (some ⟨.root, ["p"]⟩) none with
  | .error _ => none
  | .ok s =>
    let now : StateM Unit Duration := pure .zero
    match
      ((buildAll now {} (projectWith settings) ⟨.root, []⟩ ⟨.root, ["p"]⟩ s).run ()).1.result with
    | .error f => some f
    | .ok _ => none

/-- Settings that are accepted may stop a build: the suffix of outputs goes on behind a slash, or
holds a NUL, or the delay is beyond what can be counted when an output cannot be written. -/
theorem build_stopped :
    let words : Text → Option Text := fun settings =>
      (stoppedBy settings).map fun f => f.label ++ ": " ++ f.message
    words "[paths]\noutput_suffix = \"./x\"" = some "ValueError: Invalid name 'V./x'" ∧
    words "[paths]\noutput_suffix = \".\\u0000\"" = some "ValueError: embedded null byte" ∧
    words "[io]\nretry_delay_ms = 9223372036855" =
      some "OverflowError: timestamp too large to convert to C _PyTime_t" := by
  decide +kernel

end Project

end InlineMarkup
