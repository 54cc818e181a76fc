import InlineMarkup.Proofs.Directories
import InlineMarkup.Proofs.Discovery
import InlineMarkup.Proofs.Globs

/-!
# Which files are eligible

A search passes over source roots at which there is nothing and stops at one that is a file.
Otherwise it lists the eligible files in order, each once (`sources_exact`): those under a source
root whose name has the suffix, that do not lie under the generated directory and that no glob
excludes, seen from the project's root or, outside of it, from the source root.

Two things are asked for.  The source roots can be asked for (`Search.IsAskable`): a path that holds
a NUL or is too long for a disk is neither there nor not there.  And the suffix, which is searched
for as a glob, finds the names that end in it (`Search.FindsEndings`); a suffix without special
characters does (`Search.findsEndings_of_plain`).

Eligibility is about the source roots one by one, so their order does not count, nor how often each
is given.  A source root inside of another adds nothing in the project.  Outside of it, it can: the
globs are matched against shorter paths there, and may not exclude what they exclude from above
(`sources_nested_outside`).
-/

namespace InlineMarkup

namespace Project

namespace Search

/-! ## 1. Suffixes as globs -/

/-- The search finds the names that end in the suffix. -/
structure FindsEndings (suffix : Text) : Prop where
  searchable : isSearchable suffix = true
  candidate : ∀ name : Text, Text.endsWith name suffix = true → isCandidate suffix name = true

theorem isPrefixOf_eq_false {c : Char} {t : Text} (h : c ∉ t) (rest : Text) :
    (c :: rest).isPrefixOf t = false := by
  cases t with
  | nil => rfl
  | cons c' t =>
    have hc : c ≠ c' := fun hc => h (hc ▸ List.mem_cons_self)
    simp [List.isPrefixOf, hc]

theorem includes_eq_false {c : Char} {t : Text} (h : c ∉ t) (rest : Text) :
    Text.includes t (c :: rest) = false := by
  rw [Bool.eq_false_iff, ne_eq, Text.includes_iff]
  exact fun hwithin => h (hwithin.subset List.mem_cons_self)

/-- A suffix without stars does not put a second star next to the first. -/
theorem isSearchable_of_noStar {suffix : Text} (h : '*' ∉ suffix) : isSearchable suffix = true := by
  have hstar : '/' ∉ ['*'] := by decide
  obtain ⟨piece, pieces, hsuffix, hpattern⟩ := Text.splitAt_append hstar suffix
  have hnone : ∀ part ∈ Text.splitAt '/' suffix, '*' ∉ part :=
    fun part hpart hmem => h (Text.mem_of_mem_splitAt hpart hmem)
  rw [hsuffix] at hnone
  rw [isSearchable, List.all_eq_true]
  intro part hpart
  have hpart : part ∈ ('*' :: piece) :: pieces := by
    rw [Path.partsOf] at hpart
    exact hpattern ▸ (List.mem_filter.mp hpart).1
  rw [Bool.or_eq_true, Bool.not_eq_true']
  right
  rcases List.mem_cons.mp hpart with rfl | hpart
  · have hpiece := hnone piece List.mem_cons_self
    have hfirst : doubleStar.isPrefixOf ('*' :: piece) = false := by
      rw [doubleStar, List.isPrefixOf, isPrefixOf_eq_false hpiece, Bool.and_false]
    rw [Text.includes, hfirst, doubleStar, includes_eq_false hpiece]
    rfl
  · exact includes_eq_false (hnone part (List.mem_cons_of_mem _ hpart)) ['*']

/-- **A suffix without special characters finds the names that end in it.** -/
theorem findsEndings_of_plain {suffix : Text} (h : ∀ c ∈ suffix, c ∉ Glob.special) :
    FindsEndings suffix where
  searchable := isSearchable_of_noStar fun hmem => h '*' hmem (by decide)
  candidate name hends := by
    have hne : pattern suffix ≠ doubleStar := by
      intro heq
      obtain rfl : suffix = ['*'] := (List.cons.inj heq).2
      exact h '*' (List.mem_singleton_self _) (by decide)
    have hstar : Glob.ofText (pattern suffix) = .star :: Glob.ofText suffix := by
      rw [pattern, Glob.ofText, if_pos rfl]
    obtain ⟨before, hbefore⟩ := List.isSuffixOf_iff_suffix.mp hends
    rw [isCandidate, Bool.and_eq_true, hstar, Glob.accepts_star_iff]
    exact ⟨bne_iff_ne.mpr hne, before, suffix, hbefore.symm, (Glob.accepts_ofText_iff h).mpr rfl⟩

/-! ## 2. Source roots -/

theorem exists_eq_ok_iff {ε α : Type} {r : Except ε α} : (∃ a, r = .ok a) ↔ r.isOk = true := by
  cases r <;> simp [Except.isOk, Except.toBool]

/-- The source root can be asked for: it holds no NUL, and neither it nor a name in it is too
long. -/
structure CanAsk (d : Disk) (cwd root : Path) (t : Text) : Prop where
  noNul : (root.child t).holdsNul = false
  answered : ∃ found, d.look cwd (Path.resolve cwd (root.child t)) = .ok found

instance (d : Disk) (cwd root : Path) (t : Text) : Decidable (CanAsk d cwd root t) :=
  decidable_of_iff ((root.child t).holdsNul = false ∧
      (d.look cwd (Path.resolve cwd (root.child t))).isOk = true)
    ⟨fun ⟨hnul, hanswered⟩ => ⟨hnul, exists_eq_ok_iff.mpr hanswered⟩,
      fun h => ⟨h.noNul, exists_eq_ok_iff.mp h.answered⟩⟩

/-- The source root is there and is not a directory. -/
def IsFile (d : Disk) (cwd root : Path) (t : Text) : Prop :=
  ∃ bytes, d.entry? (Path.resolvedParts cwd (root.child t)) = some (.file bytes)

/-- The source root is a directory. -/
def IsDirectory (d : Disk) (cwd root : Path) (t : Text) : Prop :=
  d.entry? (Path.resolvedParts cwd (root.child t)) = some .directory

instance (d : Disk) (cwd root : Path) (t : Text) : Decidable (IsFile d cwd root t) :=
  decidable_of_iff ((d.content? (Path.resolvedParts cwd (root.child t))).isSome = true)
    (Option.isSome_iff_exists.trans (exists_congr fun _ => Disk.content?_eq_some_iff))

instance (d : Disk) (cwd root : Path) (t : Text) : Decidable (IsDirectory d cwd root t) :=
  inferInstanceAs (Decidable (_ = _))

section Roots

variable {d : Disk} {cwd root : Path} {s : Search} {t : Text}

/-- **What is answered is what is there.** -/
theorem CanAsk.look (h : CanAsk d cwd root t) (htree : d.IsTree) (hcwd : cwd.IsResolved) :
    d.look cwd (Path.resolve cwd (root.child t)) =
      .ok (d.entry? (Path.resolvedParts cwd (root.child t))) := by
  obtain ⟨found, hlook⟩ := h.answered
  have hproper : (Path.resolve cwd (root.child t)).IsResolved :=
    Path.isProper_resolvedParts hcwd (root.child t)
  have hsame : Path.resolvedParts cwd (Path.resolve cwd (root.child t)) =
      Path.resolvedParts cwd (root.child t) := Path.resolvedParts_of_isResolved cwd rfl hproper
  cases hentry : d.entry? (Path.resolvedParts cwd (root.child t)) with
  | none =>
    cases found with
    | none => exact hlook
    | some e =>
      have hfound := (Disk.find_eq_ok_iff.mp (Disk.look_eq_some_iff.mp hlook)).2.2
      rw [hsame, hentry] at hfound
      cases hfound
  | some e =>
    rw [Disk.look_eq_some_iff]
    have hfind := htree.find cwd hentry
    cases hrefusal : Disk.refusal? ⟨.root, Path.resolvedParts cwd (root.child t)⟩ with
    | none =>
      rw [hrefusal] at hfind
      exact hfind
    | some reason =>
      -- a path to something on the disk holds no NUL, so it would have to be too long
      rw [hrefusal] at hfind
      rcases Disk.refusal?_cases hrefusal with ⟨-, hholds⟩ | rfl
      · rw [htree.holdsNul_of_found hentry] at hholds
        cases hholds
      · have herror : d.find cwd (Path.resolve cwd (root.child t)) = .error .nameTooLong := hfind
        rw [Disk.look, herror] at hlook
        cases hlook

/-- **A search of some source roots stops at a file, and at nothing else.** -/
theorem underEach_cases (generated : Path) (htree : d.IsTree) (hcwd : cwd.IsResolved)
    (hsearchable : isSearchable s.suffix = true) : ∀ {roots : List Text},
      (∀ t ∈ roots, CanAsk d cwd root t) →
      ((∃ t ∈ roots, IsFile d cwd root t) ∧
        ∃ base,
          s.underEach d cwd root generated (fun _ => none) roots = .error (.sourceRoot base)) ∨
      (∀ t ∈ roots, ¬IsFile d cwd root t) ∧
        ∃ files, s.underEach d cwd root generated (fun _ => none) roots = .ok files
  | [], _ => Or.inr ⟨fun t ht => absurd ht List.not_mem_nil, [], rfl⟩
  | t :: rest, hroots => by
    have hask := hroots t List.mem_cons_self
    have ih := underEach_cases generated htree hcwd hsearchable
      fun t' ht' => hroots t' (List.mem_cons_of_mem t ht')
    rw [underEach, resolved_eq_ok_iff.mpr ⟨hask.noNul, rfl⟩]
    dsimp only
    rw [hask.look htree hcwd]
    by_cases hfile : IsFile d cwd root t
    · obtain ⟨bytes, hentry⟩ := hfile
      rw [hentry]
      exact Or.inl ⟨⟨t, List.mem_cons_self, bytes, hentry⟩, _, rfl⟩
    · cases hentry : d.entry? (Path.resolvedParts cwd (root.child t)) with
      | none =>
        rcases ih with ⟨⟨t', ht', hfile'⟩, base, hrest⟩ | ⟨hnone, files, hrest⟩
        · exact Or.inl ⟨⟨t', List.mem_cons_of_mem t ht', hfile'⟩, base, hrest⟩
        · exact Or.inr ⟨List.forall_mem_cons.mpr ⟨hfile, hnone⟩, files, hrest⟩
      | some e =>
        cases e with
        | file bytes => exact absurd ⟨bytes, hentry⟩ hfile
        | directory =>
          dsimp only
          rw [if_pos hsearchable]
          rcases ih with ⟨⟨t', ht', hfile'⟩, base, hrest⟩ | ⟨hnone, files, hrest⟩
          · rw [hrest]
            exact Or.inl ⟨⟨t', List.mem_cons_of_mem t ht', hfile'⟩, base, rfl⟩
          · rw [hrest]
            exact Or.inr ⟨List.forall_mem_cons.mpr ⟨hfile, hnone⟩, _, rfl⟩

end Roots

/-! ## 3. Eligible files -/

/-- The search can be made: its paths can be asked for, and its suffix finds the names that end in
it. -/
structure IsAskable (d : Disk) (cwd root : Path) (s : Search) : Prop where
  noNul : root.holdsNul = false
  noNulGenerated : (root.child s.generatedDir).holdsNul = false
  roots : ∀ t ∈ s.sourceRoots, CanAsk d cwd root t
  suffix : FindsEndings s.suffix

/-- The file is eligible under the source root `t`. -/
structure Eligible (d : Disk) (cwd root : Path) (s : Search) (t : Text) (file : Path) : Prop where
  anchor : file.anchor = .root
  isFile : ∃ bytes, d.entry? file.parts = some (.file bytes)
  directory : IsDirectory d cwd root t
  under : file.isUnder (Path.resolve cwd (root.child t)) = true
  ends : Text.endsWith file.name s.suffix = true
  outside : file.isUnder (Path.resolve cwd (root.child s.generatedDir)) = false
  kept : ∃ seen,
    file.relativeTo? (if file.isUnder (Path.resolve cwd root) then Path.resolve cwd root
      else Path.resolve cwd (root.child t)) = some seen ∧ Glob.excludes s.exclude seen.text = false

/-- The other source roots have no part in whether a file is eligible under one. -/
theorem eligible_sourceRoots_iff {d : Disk} {cwd root file : Path} {s : Search} {t : Text}
    (roots : List Text) :
    Eligible d cwd root { s with sourceRoots := roots } t file ↔ Eligible d cwd root s t file :=
  ⟨fun h => ⟨h.anchor, h.isFile, h.directory, h.under, h.ends, h.outside, h.kept⟩,
    fun h => ⟨h.anchor, h.isFile, h.directory, h.under, h.ends, h.outside, h.kept⟩⟩

section Eligible

variable {d : Disk} {cwd root base file : Path} {s : Search} {t : Text}

/-- Globs are matched against the path from the project's root or, outside of it, from the source
root. -/
theorem relative_eq (cwd : Path) (hroot : root.holdsNul = false)
    (hunder : file.isUnder base = true) :
    ∃ seen, file.relativeTo? (if file.isUnder (Path.resolve cwd root) then Path.resolve cwd root
        else base) = some seen ∧ relative (Path.resolve? cwd root) base file = seen.text := by
  have hresolve : Path.resolve? cwd root = some (Path.resolve cwd root) := by
    rw [Path.resolve?, hroot]
    rfl
  rw [relative, hresolve, Option.bind_some]
  by_cases hin : file.isUnder (Path.resolve cwd root) = true
  · rw [if_pos hin, Path.relativeTo?, if_pos hin]
    exact ⟨_, rfl, rfl⟩
  · have hout : file.relativeTo? (Path.resolve cwd root) = none := by
      rw [Path.relativeTo?, if_neg hin]
    rw [if_neg hin, hout, Path.relativeTo?, if_pos hunder]
    exact ⟨_, rfl, rfl⟩

/-- **The files that a search accepts under a source root are the eligible ones.** -/
theorem eligible_iff (hcwd : cwd.IsResolved) (htree : d.IsTree) (hs : s.IsAskable d cwd root)
    (ht : t ∈ s.sourceRoots) : Eligible d cwd root s t file ↔
      file.anchor = .root ∧ (∃ bytes, d.entry? file.parts = some (.file bytes)) ∧
      d.look cwd (Path.resolve cwd (root.child t)) = .ok (some .directory) ∧
      Path.resolvedParts cwd (root.child t) <+: file.parts ∧
      Path.resolvedParts cwd (root.child t) ≠ file.parts ∧
      s.accepts (Path.resolve? cwd root) (Path.resolve cwd (root.child s.generatedDir))
        (Path.resolve cwd (root.child t)) file = true := by
  have hlook := (hs.roots t ht).look htree hcwd
  constructor
  · intro h
    obtain ⟨bytes, hfile⟩ := h.isFile
    obtain ⟨seen, hseen, hkept⟩ := h.kept
    obtain ⟨seen', hseen', hrelative⟩ := relative_eq cwd hs.noNul h.under
    obtain rfl : seen' = seen := Option.some.inj (hseen'.symm.trans hseen)
    refine ⟨h.anchor, h.isFile, by rw [hlook, h.directory],
      (Path.isUnder_resolve_iff h.anchor).mp h.under, fun heq => ?_, ?_⟩
    · have hdir := h.directory
      rw [IsDirectory, heq, hfile] at hdir
      cases hdir
    · refine accepts_iff.mpr ⟨hs.suffix.candidate _ h.ends, ?_, hrelative ▸ hkept⟩
      rw [Path.isSource, h.ends, h.outside]
      rfl
  · rintro ⟨hanchor, hfile, hdir, hle, -, haccepts⟩
    obtain ⟨-, hsource, hkept⟩ := accepts_iff.mp haccepts
    rw [Path.isSource, Bool.and_eq_true, Bool.not_eq_true'] at hsource
    have hunder := (Path.isUnder_resolve_iff hanchor).mpr hle
    obtain ⟨seen, hseen, hrelative⟩ := relative_eq cwd hs.noNul hunder
    rw [hlook] at hdir
    exact ⟨hanchor, hfile, Except.ok.inj hdir, hunder, hsource.1, hsource.2, seen, hseen,
      hrelative ▸ hkept⟩

end Eligible

/-- The source root `t` adds nothing to a search: there is nothing at it, or it is a directory in a
source root that is given already, and lies in the project unless there are no globs. -/
structure IsRedundant (d : Disk) (cwd root : Path) (s : Search) (t : Text) : Prop where
  canAsk : CanAsk d cwd root t
  nested : d.entry? (Path.resolvedParts cwd (root.child t)) = none ∨
    IsDirectory d cwd root t ∧
    (∃ above ∈ s.sourceRoots, IsDirectory d cwd root above ∧
      Path.resolvedParts cwd (root.child above) <+: Path.resolvedParts cwd (root.child t)) ∧
    (Path.resolvedParts cwd root <+: Path.resolvedParts cwd (root.child t) ∨ s.exclude = [])

instance (d : Disk) (cwd root : Path) (s : Search) (t : Text) :
    Decidable (IsRedundant d cwd root s t) :=
  decidable_of_iff (CanAsk d cwd root t ∧ _) ⟨fun ⟨hask, hnested⟩ => ⟨hask, hnested⟩,
    fun h => ⟨h.canAsk, h.nested⟩⟩

/-- **What is eligible under a redundant source root is eligible under another.** -/
theorem IsRedundant.eligible {d : Disk} {cwd root file : Path} {s : Search} {t : Text}
    (h : IsRedundant d cwd root s t) (hfile : Eligible d cwd root s t file) :
    ∃ above ∈ s.sourceRoots, Eligible d cwd root s above file := by
  rcases h.nested with hnone | ⟨-, ⟨above, habove, hdir, hle⟩, hinside⟩
  · have hdir := hfile.directory
    rw [IsDirectory, hnone] at hdir
    cases hdir
  have hunder := (Path.isUnder_resolve_iff hfile.anchor).mp hfile.under
  have hunder' : file.isUnder (Path.resolve cwd (root.child above)) = true :=
    (Path.isUnder_resolve_iff hfile.anchor).mpr (hle.trans hunder)
  refine ⟨above, habove, hfile.anchor, hfile.isFile, hdir, hunder', hfile.ends, hfile.outside, ?_⟩
  rcases hinside with hinside | hnone
  · -- in the project, the path is seen from the project's root either way
    have hin : file.isUnder (Path.resolve cwd root) = true :=
      (Path.isUnder_resolve_iff hfile.anchor).mpr (hinside.trans hunder)
    obtain ⟨seen, hseen, hkept⟩ := hfile.kept
    rw [if_pos hin] at hseen
    exact ⟨seen, by rw [if_pos hin, hseen], hkept⟩
  · rw [hnone]
    split
    · rename_i hin
      exact ⟨_, by rw [Path.relativeTo?, if_pos hin], rfl⟩
    · exact ⟨_, by rw [Path.relativeTo?, if_pos hunder'], rfl⟩

end Search

open Search

/-! ## 4. Searches -/

section Sources

variable {d : Disk} {cwd root : Path} {s : Search} (htree : d.IsTree) (hcwd : cwd.IsResolved)
  (hs : s.IsAskable d cwd root)

include htree hcwd hs

theorem mem_sources_iff_eligible {files : List Path} (h : sources d cwd root s = .ok files)
    (file : Path) : file ∈ files ↔ ∃ t ∈ s.sourceRoots, Eligible d cwd root s t file := by
  rw [mem_sources_iff htree h]
  constructor
  · rintro ⟨hanchor, hfile, t, ht, hrest⟩
    exact ⟨t, ht, (eligible_iff hcwd htree hs ht).mpr ⟨hanchor, hfile, hrest⟩⟩
  · rintro ⟨t, ht, heligible⟩
    obtain ⟨hanchor, hfile, hrest⟩ := (eligible_iff hcwd htree hs ht).mp heligible
    exact ⟨hanchor, hfile, t, ht, hrest⟩

theorem sources_cases :
    ((∃ t ∈ s.sourceRoots, IsFile d cwd root t) ∧
      ∃ base, sources d cwd root s = .error (.sourceRoot base)) ∨
    (∀ t ∈ s.sourceRoots, ¬IsFile d cwd root t) ∧ ∃ files, sources d cwd root s = .ok files := by
  rw [sources, resolved_eq_ok_iff.mpr ⟨hs.noNulGenerated, rfl⟩]
  dsimp only
  rcases underEach_cases (Path.resolve cwd (root.child s.generatedDir)) htree hcwd
    hs.suffix.searchable hs.roots with ⟨hfile, base, hfound⟩ | ⟨hnone, files, hfound⟩
  · rw [hfound]
    exact Or.inl ⟨hfile, base, rfl⟩
  · rw [hfound]
    exact Or.inr ⟨hnone, _, rfl⟩

/-- Sources are strictly in order. -/
theorem pairwise_sources {files : List Path} (h : sources d cwd root s = .ok files) :
    files.Pairwise fun a b => a.key < b.key := by
  have hmem := mem_sources_iff_eligible htree hcwd hs h
  obtain ⟨found, -, -, rfl⟩ := sources_eq_ok h
  refine ((Path.pairwise_sorted found).and (Path.nodup_sorted found)).imp_of_mem fun ha hb hab => ?_
  obtain ⟨_, _, ha⟩ := (hmem _).mp ha
  obtain ⟨_, _, hb⟩ := (hmem _).mp hb
  exact lt_of_le_of_ne hab.1 fun heq => hab.2 (Path.eq_of_key_eq ha.anchor hb.anchor heq)

/-- **Neither redundant source roots nor their order or number change what is found.** -/
theorem sources_of_redundant {files : List Path} (h : sources d cwd root s = .ok files)
    {roots : List Text} (hall : s.sourceRoots ⊆ roots)
    (hmore : ∀ t ∈ roots, t ∈ s.sourceRoots ∨ IsRedundant d cwd root s t) :
    sources d cwd root { s with sourceRoots := roots } = .ok files := by
  have hs' : IsAskable d cwd root { s with sourceRoots := roots } :=
    ⟨hs.noNul, hs.noNulGenerated, fun t ht => (hmore t ht).elim (hs.roots t) IsRedundant.canAsk,
      hs.suffix⟩
  have hnone : ∀ t ∈ roots, ¬IsFile d cwd root t := by
    intro t ht
    rcases hmore t ht with ht | hredundant
    · rcases sources_cases htree hcwd hs with ⟨-, base, herror⟩ | ⟨hnone, -⟩
      · rw [herror] at h
        cases h
      · exact hnone t ht
    · rintro ⟨bytes, hfile⟩
      rcases hredundant.nested with hnone | ⟨hdir, -⟩
      · rw [hnone] at hfile
        cases hfile
      · rw [IsDirectory, hfile] at hdir
        cases hdir
  rcases sources_cases htree hcwd hs' with ⟨⟨t, ht, hfile⟩, -⟩ | ⟨-, files', h'⟩
  · exact absurd hfile (hnone t ht)
  rw [h']
  have hmem := mem_sources_iff_eligible htree hcwd hs h
  have hmem' := mem_sources_iff_eligible htree hcwd hs' h'
  obtain ⟨found, -, -, rfl⟩ := sources_eq_ok h
  obtain ⟨found', -, -, rfl⟩ := sources_eq_ok h'
  congr 1
  refine Path.sorted_congr (fun file hfile => ?_) fun file => ?_
  · obtain ⟨t, -, heligible⟩ := (hmem' file).mp (Path.mem_sorted.mpr hfile)
    exact heligible.anchor
  · rw [← Path.mem_sorted, hmem', ← Path.mem_sorted, hmem]
    constructor
    · rintro ⟨t, ht, heligible⟩
      have heligible := (eligible_sourceRoots_iff roots).mp heligible
      rcases hmore t ht with ht | hredundant
      · exact ⟨t, ht, heligible⟩
      · exact hredundant.eligible heligible
    · rintro ⟨t, ht, heligible⟩
      exact ⟨t, hall ht, (eligible_sourceRoots_iff roots).mpr heligible⟩

end Sources

/-- **A search finds exactly the eligible files.**  It fails just when a source root is there and is
not a directory.  Otherwise it lists the eligible files strictly in order, and lists the same for
source roots in another order, or given again, or with redundant ones among them. -/
theorem sources_exact {d : Disk} {cwd root : Path} {s : Search} (htree : d.IsTree)
    (hcwd : cwd.IsResolved) (hs : s.IsAskable d cwd root) :
    ((∃ base, sources d cwd root s = .error (.sourceRoot base)) ↔
      ∃ t ∈ s.sourceRoots, IsFile d cwd root t) ∧
    ((∀ t ∈ s.sourceRoots, ¬IsFile d cwd root t) →
      ∃ files, sources d cwd root s = .ok files ∧
        files.Pairwise (fun a b => a.key < b.key) ∧
        (∀ file, file ∈ files ↔ ∃ t ∈ s.sourceRoots, Eligible d cwd root s t file) ∧
        ∀ roots : List Text, s.sourceRoots ⊆ roots →
          (∀ t ∈ roots, t ∈ s.sourceRoots ∨ IsRedundant d cwd root s t) →
          sources d cwd root { s with sourceRoots := roots } = .ok files) := by
  rcases sources_cases htree hcwd hs with ⟨hfile, base, herror⟩ | ⟨hnone, files, hfiles⟩
  · refine ⟨⟨fun _ => hfile, fun _ => ⟨base, herror⟩⟩, fun hnone => ?_⟩
    obtain ⟨t, ht, hfile⟩ := hfile
    exact absurd hfile (hnone t ht)
  · refine ⟨⟨fun ⟨base, herror⟩ => ?_, fun ⟨t, ht, hfile⟩ => absurd hfile (hnone t ht)⟩,
      fun _ => ?_⟩
    · rw [hfiles] at herror
      cases herror
    · exact ⟨files, hfiles, pairwise_sources htree hcwd hs hfiles,
        mem_sources_iff_eligible htree hcwd hs hfiles,
        fun roots => sources_of_redundant htree hcwd hs hfiles⟩

/-- A project in `/p` with sources in some directories of it and in one beside it. -/
def scattered : Disk :=
  ⟨[(["p"], .directory), (["p", "V.xcs"], .file []), (["p", "src"], .directory),
    (["p", "src", "W.xcs"], .file []), (["p", "bin"], .directory),
    (["p", "bin", "X.xcs"], .file []), (["p", "Generated"], .directory), (["p", "Generated", "Y.xcs"], .file []), (["a"], .directory),
    (["a", "bin"], .directory), (["a", "bin", "Z.xcs"], .file [])]⟩

theorem sources_exact_scattered :
    let search := fun roots : List Text => sources scattered ⟨.root, []⟩ ⟨.root, ["p"]⟩
      { sourceRoots := roots, exclude := ["bin/*"] }
    (∃ base, search [".", "V.xcs"] = .error (.sourceRoot base)) ∧
    ∃ files, search [".", "../a", "none"] = .ok files ∧
      search ["../a", "src", ".", "other", ".", "none"] = .ok files ∧
      (⟨.root, ["p", "src", "W.xcs"]⟩ : Path) ∈ files := by
  intro search
  have hgenerated : ((⟨.root, ["p"]⟩ : Path).child Path.generatedDir).holdsNul = false := by decide
  have hplain : (Path.sourceSuffix.all fun c => !Glob.special.contains c) = true := by decide
  have hsuffix : FindsEndings Path.sourceSuffix :=
    findsEndings_of_plain fun c hc => by simpa using List.all_eq_true.mp hplain c hc
  have hask : ∀ roots : List Text, (∀ t ∈ roots, CanAsk scattered ⟨.root, []⟩ ⟨.root, ["p"]⟩ t) →
      IsAskable scattered ⟨.root, []⟩ ⟨.root, ["p"]⟩
        { sourceRoots := roots, exclude := ["bin/*"] } :=
    fun roots hroots => ⟨rfl, hgenerated, hroots, hsuffix⟩
  refine ⟨(sources_exact (by decide) (by decide) (hask _ (by decide +kernel))).1.mpr
    ⟨"V.xcs", by decide, by decide +kernel⟩, ?_⟩
  obtain ⟨files, hfiles, -, hmem, hsame⟩ := (sources_exact (by decide) (by decide)
    (hask [".", "../a", "none"] (by decide +kernel))).2 (by decide +kernel)
  refine ⟨files, hfiles, hsame _ (by decide) (by decide +kernel), (hmem _).mpr ⟨".", by decide, ?_⟩⟩
  exact ⟨rfl, ⟨[], by decide⟩, by decide, by decide, by decide, by decide, _, rfl,
    by decide +kernel⟩

/-- A source root in another changes what is found outside of the project, where a glob that
excludes a directory of the outer one does not match in the inner one; and source roots that cannot
be asked for are not passed over. -/
theorem sources_nested_outside :
    let search := fun roots : List Text => sources scattered ⟨.root, []⟩ ⟨.root, ["p"]⟩
      { sourceRoots := roots, exclude := ["bin/*"] }
    search ["../a"] = .ok [] ∧
    search ["../a", "../a/bin"] = .ok [⟨.root, ["a", "bin", "Z.xcs"]⟩] ∧
    ∀ t ∈ ([[Path.nul], List.replicate 256 'x'] : List Text),
      (search [t, "../a"]).isOk = false := by
  decide +kernel

end Project

end InlineMarkup
