import InlineMarkup.Proofs.Atomicity
import InlineMarkup.Watch

/-!
# A build does not feed on its output

Three questions about a path are asked in three places: where the output of a source goes, whether a
file that a search comes upon is a source, and whether a change that a watch sees is one of a
source.  They agree because the answers are all about one directory.  An output lies strictly in the
generated directory (`exists_of_output`), and that is enough for the rest: it is not a source there,
no search finds it, no watch keeps it or is set off by it, and since a build writes nowhere else, no
source is overwritten (`output_harmless`).

The suffix has to start with a dot and to go on with something other than a slash.  A dot alone
makes `..` out of the stem `.`, and so does `./.`.
-/

namespace InlineMarkup

/-! ## 1. Where outputs lie -/

/-- **An output lies strictly in the generated directory**, wherever its source is: it is that
directory, some folders and a name, and all of these are proper. -/
theorem exists_of_output {cwd source root out : Path} {generated suffix : Text}
    (hcwd : cwd.IsResolved) (hsource : '/' ∉ source.name)
    (hdot : Text.startsWith suffix "." = true) (hmore : suffix ≠ ".")
    (hslash : Text.startsWith suffix "./" = false)
    (h : Path.output cwd source root generated suffix = .ok out) :
    ∃ folders name, (∀ part ∈ folders ++ [name], Path.IsProper part) ∧
      out = (root.child generated).extend (folders ++ [name]) := by
  have hwithin := Path.isWithin_within hcwd hsource root
  obtain ⟨name, hname, hne, rfl⟩ := Path.eq_of_output hcwd hsource h
  have hstem : '/' ∉ (Path.within cwd source root).stem := fun hmem =>
    hwithin.noSlash ((Path.stem_sublist _).subset hmem)
  have hproper := Path.isProper_of_partsOf (Path.stem_ne_nil hne) hstem hdot hmore hslash hname
  refine ⟨(Path.within cwd source root).parts.dropLast, name, fun part hpart => ?_, rfl⟩
  rcases List.mem_append.mp hpart with hpart | hpart
  · exact hwithin.folders part hpart
  · rw [List.mem_singleton.mp hpart]
    exact hproper

/-! ## 2. What is not kept does not set off a watch -/

namespace Watch

theorem Scope.sources_eq_nil {scope : Scope} {g : Path} {changed : List Path}
    (hg : scope.generated = some g) (h : ∀ p ∈ changed, p.isUnder g = true) :
    scope.sources changed = [] := by
  refine List.eq_nil_iff_forall_not_mem.mpr fun p hp => ?_
  obtain ⟨hmem, hcontains⟩ := List.mem_filter.mp (Path.mem_sorted.mp hp)
  rw [Scope.contains, hg, Path.isSource] at hcontains
  simp [h p hmem] at hcontains

/-- **A batch of which nothing is kept is passed over.** -/
theorem loop_of_sources_eq_nil {m : Type → Type} [Monad m] [LawfulMonad m] {σ ε β : Type}
    (w : World m σ ε β) (scope : Scope) (batch : β) (rest : List β) (s : σ)
    (h : scope.sources (w.arrive batch s).1 = []) :
    loop w scope (batch :: rest) s =
      (fun r => (.batch :: r.1, r.2)) <$> loop w scope rest (w.arrive batch s).2 := by
  rw [loop]
  generalize w.arrive batch s = arrival at h ⊢
  obtain ⟨changed, s'⟩ := arrival
  dsimp only at h ⊢
  rw [h]
  simp [step, partitionGone]

end Watch

/-! ## 3. Outputs and sources -/

/-- A file in the generated directory that no build and no watch takes for a source: it lies
strictly in the directory, so whatever the suffix of sources it is none, no search finds it under
any path, no watch keeps it, and no watch is set off by a batch of such files. -/
structure Harmless (cwd root : Path) (generated : Text) (file : Path) : Prop where
  under : (Path.resolve cwd file).isUnder (Path.resolve cwd (root.child generated)) = true
  ne : Path.resolve cwd file ≠ Path.resolve cwd (root.child generated)
  notSource : ∀ suffix,
    (Path.resolve cwd file).isSource suffix (some (Path.resolve cwd (root.child generated))) = false
  notFound : ∀ (d : Disk) (s : Project.Search) (files : List Path), d.IsTree →
    s.generatedDir = generated → Project.sources d cwd root s = .ok files →
    ∀ p ∈ files, Path.resolve cwd p ≠ Path.resolve cwd file
  notKept : ∀ (scope : Watch.Scope) (changed : List Path),
    scope.generated = some (Path.resolve cwd (root.child generated)) →
    Path.resolve cwd file ∉ scope.sources changed
  quiet : ∀ {m : Type → Type} [Monad m] [LawfulMonad m] {σ ε β : Type} (w : Watch.World m σ ε β)
    (scope : Watch.Scope) (batch : β) (rest : List β) (s : σ),
    scope.generated = some (Path.resolve cwd (root.child generated)) →
    (∀ p ∈ (w.arrive batch s).1, p.isUnder (Path.resolve cwd (root.child generated)) = true) →
    Watch.loop w scope (batch :: rest) s =
      (fun r => (.batch :: r.1, r.2)) <$> Watch.loop w scope rest (w.arrive batch s).2

theorem harmless_of_append {cwd root file : Path} {generated : Text} {names : List Text}
    (hne : names ≠ [])
    (h : Path.resolvedParts cwd file = Path.resolvedParts cwd (root.child generated) ++ names) :
    Harmless cwd root generated file := by
  have hunder : (Path.resolve cwd file).isUnder (Path.resolve cwd (root.child generated)) = true :=
    (Path.isUnder_resolve_iff rfl).mpr ⟨names, h.symm⟩
  refine ⟨hunder, fun heq => ?_, fun suffix => ?_, ?_, ?_, ?_⟩
  · have hparts : Path.resolvedParts cwd file = Path.resolvedParts cwd (root.child generated) :=
      congrArg Path.parts heq
    rw [h] at hparts
    exact hne (List.append_right_eq_self.mp hparts)
  · rw [Path.isSource, hunder]
    simp
  · rintro d s files htree rfl hfiles p hp heq
    have helsewhere := Project.isElsewhere_of_mem_sources htree hfiles hp
    have hp' := Path.resolvedParts_of_isResolved cwd helsewhere.anchor helsewhere.resolved
    have hparts : p.parts = Path.resolvedParts cwd file := hp' ▸ congrArg Path.parts heq
    refine helsewhere.outside ?_
    rw [hparts, h]
    exact List.prefix_append _ _
  · intro scope changed hg hmem
    obtain ⟨-, hcontains⟩ := List.mem_filter.mp (Path.mem_sorted.mp hmem)
    rw [Watch.Scope.contains, hg, Path.isSource] at hcontains
    simp [hunder] at hcontains
  · intro m _ _ σ ε β w scope batch rest s hg hall
    exact Watch.loop_of_sources_eq_nil w scope batch rest s (Watch.Scope.sources_eq_nil hg hall)

/-- **A build never feeds on its own output.**  The output of a source, inside the root or outside
of it, is harmless, and so are the new files through which it is written.  Building the source
changes no file but its output, and leaves at most new files that cannot be removed; so no file that
is not strictly in the generated directory changes, and no source is among those that do. -/
theorem output_harmless {cwd source root out : Path} {generated suffix : Text}
    (hcwd : cwd.IsResolved) (hsource : '/' ∉ source.name)
    (hdot : Text.startsWith suffix "." = true) (hmore : suffix ≠ ".")
    (hslash : Text.startsWith suffix "./" = false)
    (h : Path.output cwd source root generated suffix = .ok out) :
    Harmless cwd root generated out ∧
      (∀ n, Harmless cwd root generated
        (Disk.named (Path.absolute cwd out.parent) (Disk.temporary out.suffix n))) ∧
      ∀ (system : Project.System) (d : Disk) (plan : Project.Plan), plan.generatedDir = generated →
        plan.outputSuffix = suffix → ∀ l, l ≠ (Path.resolve cwd out).parts →
          (Project.buildFileUntimed system d cwd root source plan).disk.content? l = d.content? l ∨
            ¬system.Clears out ∧ Disk.IsLeftover d cwd out l := by
  obtain ⟨folders, name, hproper, hout⟩ := exists_of_output hcwd hsource hdot hmore hslash h
  refine ⟨?_, fun n => ?_, ?_⟩
  · have hparts := Path.resolvedParts_append cwd (root.child generated) hproper
    exact harmless_of_append (by simp) (hout ▸ hparts)
  · have hfolders := Path.resolvedParts_append cwd (root.child generated) fun part hpart =>
      hproper part (List.mem_append_left [name] hpart)
    have hsuffix : '/' ∉ out.suffix := by
      rw [hout, Path.extend_append]
      exact Disk.slash_notMem_suffix (Or.inr (hproper name (by simp)))
    have hfile : Path.resolvedParts cwd
        ((Path.absolute cwd out.parent).extend [Disk.temporary out.suffix n]) =
        Path.resolvedParts cwd (root.child generated) ++
          (folders ++ [Disk.temporary out.suffix n]) := by
      rw [Path.resolvedParts_append cwd _ fun part hpart =>
        List.mem_singleton.mp hpart ▸ Disk.isProper_temporary hsuffix n,
        Path.resolvedParts_absolute hcwd, hout, Path.parent_extend, hfolders, List.append_assoc]
    exact harmless_of_append (by simp) hfile
  · rintro system d plan rfl rfl l hl
    exact Project.others_buildFileUntimed h d hl

theorem output_harmless_above :
    Harmless ⟨.root, []⟩ ⟨.root, ["p"]⟩ "../out" ⟨.root, ["p", "..", "out", "V.a.xcs"]⟩ := by
  have h : Path.output ⟨.root, []⟩ ⟨.root, ["p", "V.xcs"]⟩ ⟨.root, ["p"]⟩ "../out" ".a.xcs" =
      .ok ⟨.root, ["p", "..", "out", "V.a.xcs"]⟩ := by decide
  exact (output_harmless (by decide) (by decide) (by decide) (by decide) (by decide) h).1

end InlineMarkup
