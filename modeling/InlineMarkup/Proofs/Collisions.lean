import InlineMarkup.Proofs.AcceptedNames
import InlineMarkup.Proofs.Building

/-!
# Sources that share an output

The output of a source is made from its path within the project: its folders stay, and its name
loses one suffix and gets another.  Both steps can be undone for the names of sources, which all end
in one suffix (`name_eq_of_stem_eq`), so two sources share an output just when they have the same
path within the project (`output_eq_iff`).  Inside the root that is to be the same file.  A source
outside of the root has no path within the project but its name, and there it may meet others.

One name has to be left out, the suffix itself: a name whose only dot is its first character is its
own stem, so `.xcs` and `.xcs.xcs` have the same stem.

When no two sources of a build have the same path, each that is built leaves its own expansion in
its own output (`Builds.own`).
-/

namespace InlineMarkup

namespace Path

/-! ## 1. Stems -/

end Path

namespace Project

open Disk

/-! ## 3. What a run leaves in the outputs -/

section Own

variable {cwd root : Path} {s : Settings} {g : Location} {d d' : Disk} {files : List Path}
  {rs : List FileResult} {system : System} {clock : Path → Nat → Nat}

theorem source_of_buildFileUntimed {source : Path} {plan : Plan} {r : FileResult}
    (h : (buildFileUntimed system d cwd root source plan).result = .ok r) : r.source = source := by
  cases hout : Path.output cwd source root plan.generatedDir plan.outputSuffix with
  | error f =>
    rw [buildFileUntimed, hout] at h
    cases h
  | ok out =>
    cases hresult : (compile system d cwd source out plan.names plan.patience).result with
    | ok expansions =>
      rw [buildFileUntimed_of_ok hout hresult] at h
      cases h
      rfl
    | error f =>
      rw [buildFileUntimed_of_error hout hresult] at h
      split at h
      · cases h
        rfl
      · cases h

theorem Builds.map_source (h : Builds system cwd root s d files rs d') :
    rs.map FileResult.source = files := by
  induction h with
  | nil d => rfl
  | @cons d d' source rest plan r rs duration hplan hbuilt hrest ih =>
    have hsource : r.source = source := source_of_buildFileUntimed hbuilt
    rw [List.map_cons, ih]
    exact congrArg (· :: rest) hsource

variable (hcwd : cwd.IsResolved)

include hcwd

/-- The results of a run name the outputs of the sources, and where a source has been built the
output is the generated directory and proper names. -/
theorem Builds.output_of_mem (h : Builds (.orderly clock) cwd root s d files rs d')
    (htree : d.IsTree) (hleads : Leads d cwd (root.child s.generatedDir) g)
    (hfiles : ∀ source ∈ files, IsElsewhere g source) {r : FileResult} (hr : r ∈ rs) :
    Path.output cwd r.source root s.generatedDir s.outputSuffix = .ok r.output ∧
      (r.error = none → ∃ parts, (∀ part ∈ parts, Path.IsProper part) ∧
        r.output = (root.child s.generatedDir).extend parts) := by
  induction h with
  | nil d => exact absurd hr List.not_mem_nil
  | @cons d d' source rest plan r₀ rs duration hplan hbuilt hrest ih =>
    obtain ⟨hdir, hsuffix, -⟩ := generatedDir_of_ofSettings hplan
    rw [← hdir] at hleads ih ⊢
    obtain ⟨ws, hstep⟩ :=
      rebuilds hcwd (hfiles source List.mem_cons_self).resolved.noSlash htree hleads hbuilt
    rcases List.mem_cons.mp hr with rfl | hr
    · refine ⟨?_, hstep.proper⟩
      rw [← hsuffix, ← hstep.output_eq, ← hstep.source_eq]
    · exact ih hstep.leaves.tree (hleads.grows hstep.leaves.grows)
        (fun p hp => hfiles p (List.mem_cons_of_mem source hp)) hr

/-- A run changes no file but the outputs of the sources that it has built. -/
theorem Builds.content_other (h : Builds (.orderly clock) cwd root s d files rs d')
    (htree : d.IsTree) (hleads : Leads d cwd (root.child s.generatedDir) g)
    (hfiles : ∀ source ∈ files, IsElsewhere g source) {l : Location}
    (hl : ∀ r ∈ rs, r.error = none → Path.resolvedParts cwd r.output ≠ l) :
    d'.content? l = d.content? l := by
  induction h with
  | nil d => rfl
  | @cons d d' source rest plan r rs duration hplan hbuilt hrest ih =>
    rw [← (generatedDir_of_ofSettings hplan).1] at hleads ih
    obtain ⟨ws, hstep⟩ :=
      rebuilds hcwd (hfiles source List.mem_cons_self).resolved.noSlash htree hleads hbuilt
    rw [ih hstep.leaves.tree (hleads.grows hstep.leaves.grows)
      (fun p hp => hfiles p (List.mem_cons_of_mem source hp))
      fun r' hr' => hl r' (List.mem_cons_of_mem _ hr')]
    by_cases herror : r.error = none
    · obtain ⟨t, -, rfl⟩ := hstep.own herror
      rw [hstep.leaves.content]
      exact Function.update_of_ne (Ne.symm (hl _ List.mem_cons_self herror)) _ _
    · obtain rfl := hstep.failed herror
      rw [hstep.leaves.content]
      rfl

/-- **A source that shares its output with no other leaves its own expansion there.** -/
theorem Builds.own (h : Builds (.orderly clock) cwd root s d files rs d') (htree : d.IsTree)
    (hleads : Leads d cwd (root.child s.generatedDir) g)
    (hfiles : ∀ source ∈ files, IsElsewhere g source) (hnodup : files.Nodup) {r : FileResult}
    (hr : r ∈ rs) (herror : r.error = none)
    (halone : ∀ r' ∈ rs, r'.error = none →
      Path.resolvedParts cwd r'.output = Path.resolvedParts cwd r.output → r'.source = r.source) :
    ∃ t, d.readText cwd r.source = .ok t ∧
      d'.content? (Path.resolvedParts cwd r.output) =
        some (Utf8.encode (expand s.names t).text) := by
  induction h with
  | nil d => exact absurd hr List.not_mem_nil
  | @cons d d' source rest plan r₀ rs duration hplan hbuilt hrest ih =>
    obtain ⟨hdir, -, hnames⟩ := generatedDir_of_ofSettings hplan
    have hothers := fun p hp => hfiles p (List.mem_cons_of_mem source hp)
    rw [← hdir] at hleads ih
    obtain ⟨ws, hstep⟩ :=
      rebuilds hcwd (hfiles source List.mem_cons_self).resolved.noSlash htree hleads hbuilt
    have hleads' := hleads.grows hstep.leaves.grows
    obtain ⟨hnew, hnodup⟩ := List.nodup_cons.mp hnodup
    rcases List.mem_cons.mp hr with rfl | hr
    · obtain ⟨t, hread, rfl⟩ := hstep.own herror
      refine ⟨t, hstep.source_eq ▸ hread, ?_⟩
      rw [hrest.content_other hcwd hstep.leaves.tree (hdir ▸ hleads') hothers, hstep.leaves.content,
        ← hnames]
      · exact Function.update_self ..
      · intro r' hr' herror' heq
        have hsource := halone r' (List.mem_cons_of_mem _ hr') herror' heq
        refine hnew ?_
        rw [← hrest.map_source, ← hstep.source_eq]
        exact hsource ▸ List.mem_map_of_mem hr'
    · obtain ⟨t, hread, hcontent⟩ := ih hstep.leaves.tree hleads' hothers hnodup hr
        fun r' hr' => halone r' (List.mem_cons_of_mem _ hr')
      have hmem : r.source ∈ rest := hrest.map_source ▸ List.mem_map_of_mem hr
      refine ⟨t, ?_, hcontent⟩
      rw [← (hothers _ hmem).readText hstep.leaves.outside cwd]
      exact hread

/-- Sources that have been built to one place have the same output. -/
theorem Builds.output_eq (h : Builds (.orderly clock) cwd root s d files rs d') (htree : d.IsTree)
    (hleads : Leads d cwd (root.child s.generatedDir) g)
    (hfiles : ∀ source ∈ files, IsElsewhere g source) {r r' : FileResult} (hr : r ∈ rs)
    (hr' : r' ∈ rs) (herror : r.error = none) (herror' : r'.error = none)
    (heq : Path.resolvedParts cwd r.output = Path.resolvedParts cwd r'.output) :
    r.output = r'.output := by
  obtain ⟨parts, hparts, hshape⟩ := (h.output_of_mem hcwd htree hleads hfiles hr).2 herror
  obtain ⟨parts', hparts', hshape'⟩ := (h.output_of_mem hcwd htree hleads hfiles hr').2 herror'
  rw [hshape, hshape', Path.resolvedParts_append _ _ hparts, Path.resolvedParts_append _ _ hparts']
    at heq
  rw [hshape, hshape', List.append_cancel_left heq]

end Own

/-! ## 4. Projects -/

theorem suffixes_of_check {s s' : Settings} (h : s.check = .ok s') :
    Text.startsWith s.sourceSuffix "." = true ∧ Text.startsWith s.outputSuffix "." = true ∧
      (Path.ofText s.generatedDir).isAbsolute = false := by
  unfold Settings.check at h
  split at h
  · cases h
  · rename_i hdots
    split at h
    · cases h
    · split at h
      · cases h
      · rename_i hrelative
        simp only [Bool.or_eq_true, Bool.not_eq_true', not_or, Bool.not_eq_false] at hdots
        simp only [Bool.or_eq_true, not_or, Bool.not_eq_true] at hrelative
        exact ⟨hdots.1, hdots.2, hrelative.2⟩

section Sources

variable {d d' : Disk} {cwd root p : Path} {s : Search} {files : List Path}

end Sources

end Project

end InlineMarkup
