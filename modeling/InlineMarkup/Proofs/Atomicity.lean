import InlineMarkup.Proofs.Building

/-!
# A file is built or it is not

Building a source ends in one of two ways.  Either the output is there and reads as the expansion of
the source, and no other file is another than it was; or no file is another at all, and what stood
at the output still stands there (`buildFile_atomic`).  There is no third way, wherever a refusal
strikes: when the source is opened or read, while directories are made, when the new file is made,
while it is being filled, or when it is to take the output's place, in one attempt or in all.

There is one exception.  If the system refuses to remove the new file, the new file stays, and
nothing more can be said than that the output is the old one or the whole new one.

All of this is about what one attempt at a write does (`Replaces`).  A failed attempt changes no
file but for what it cannot remove, so it can be followed by others (`Replaces.after_failed`), and
what a write with retries does is what its last attempt does.

The disk may be any, and need not be a tree.
-/

namespace InlineMarkup

namespace Disk

variable {d d' : Disk} {cwd p : Path} {t : Text}

/-! ## 1. The file that has been written -/

/-- Names that lead to a directory start from one. -/
theorem directory_of_follow {l m : Location} : ∀ {names : List Text},
    follow d l names = .ok m → d.entry? m = some .directory → d.entry? l = some .directory
  | [], h, hdir => by
    cases h
    exact hdir
  | name :: names, h, _ => by
    rw [follow] at h
    split at h
    · cases h
    · cases h
    · assumption

/-- The way to a directory is a way through directories, and stays one where they all are. -/
theorem follow_of_directories
    (hkeeps : ∀ l, d.entry? l = some .directory → d'.entry? l = some .directory) :
    ∀ {names : List Text} {l m : Location}, follow d l names = .ok m →
      d.entry? m = some .directory → follow d' l names = .ok m
  | [], l, m, h, _ => h
  | name :: names, l, m, h, hdir => by
    have hhere := directory_of_follow h hdir
    rw [follow, hhere] at h
    rw [follow, hkeeps l hhere]
    dsimp only at h ⊢
    split at h
    · rename_i hname
      rw [if_pos hname]
      exact follow_of_directories hkeeps h hdir
    · rename_i hname
      rw [if_neg hname]
      split at h
      · rename_i hname
        rw [if_pos hname]
        exact follow_of_directories hkeeps h hdir
      · rename_i hname
        rw [if_neg hname]
        split at h
        · cases h
        · rename_i hshort
          rw [if_neg hshort]
          split at h
          · have hnext := hkeeps _ (directory_of_follow h hdir)
            rw [if_pos (by rw [hnext]; rfl)]
            exact follow_of_directories hkeeps h hdir
          · cases h

/-- **A file that a new one has been moved to reads as the text.** -/
theorem readBytes_of_replaceBy {file : Location} (hnew : IsNew d cwd p file)
    (h : replaceBy (d.insert file (.file (Utf8.encode t))) cwd file (Utf8.encode t) p = .ok d') :
    d'.readBytes cwd p = .ok (Utf8.encode t) := by
  have hput := put_of_replaceBy hnew h
  have hentry := (hput.done rfl).2
  obtain ⟨above, name, hplace, -, -⟩ := replaceBy_eq_ok h
  obtain ⟨hrefusal, habove, hname, hresolved, names, hsteps, hfollow⟩ := place_eq_named hplace
  -- the new file is no directory, so all directories have been there before
  have hkeeps : ∀ l, entry? (d.insert file (.file (Utf8.encode t))) l = some .directory →
      d'.entry? l = some .directory := by
    intro l hl
    rw [entry?_insert d hnew.ne_nil] at hl
    split at hl
    · cases hl
    · exact hput.grows.directory hl
  have htarget : d'.entry? (above ++ [name]) = some (.file (Utf8.encode t)) := by
    rw [hentry, if_pos hresolved]
  have hfind : d'.find cwd p = .ok (.file (Utf8.encode t)) := by
    rw [find_eq_ok_iff]
    refine ⟨hrefusal, ?_, by rw [← hresolved, htarget]⟩
    rw [hsteps, follow_append, follow_of_directories hkeeps hfollow habove, ← hresolved]
    exact follow_cons_of_isProper [] (hkeeps above habove) hname.proper hname.short
      (by rw [htarget]; rfl)
  rw [readBytes, hfind]

/-! ## 2. One attempt, and several -/

/-- Where work on the file at a path may leave a new file: beside it, where no file was. -/
def IsLeftover (d : Disk) (cwd p : Path) (l : Location) : Prop :=
  d.content? l = none ∧
    ∃ n, l = (named (Path.absolute cwd p.parent) (temporary p.suffix n)).parts

/-- What work on the file at a path comes to.  The file is the old one or holds the whole text, and
holds it if the work succeeds.  Where new files can be removed, which is what `clears` stands for,
no other file is another, and none at all if the work fails. -/
structure Replaces {ε : Type} (cwd p : Path) (t : Text) (clears : Prop) (r : Except ε Unit)
    (d d' : Disk) : Prop where
  others : ∀ l, l ≠ Path.resolvedParts cwd p →
    d'.content? l = d.content? l ∨ ¬clears ∧ IsLeftover d cwd p l
  whole : d'.content? (Path.resolvedParts cwd p) = d.content? (Path.resolvedParts cwd p) ∨
    d'.content? (Path.resolvedParts cwd p) = some (Utf8.encode t)
  done : r = .ok () → d'.readBytes cwd p = .ok (Utf8.encode t)
  failed : clears → ∀ e, r = .error e → ∀ l, d'.content? l = d.content? l

namespace Replaces

variable {ε : Type} {clears : Prop} {e : ε} {r : Except ε Unit} {d₁ d₂ : Disk}

theorem of_content (h : ∀ l, d'.content? l = d.content? l) :
    Replaces cwd p t clears (.error e) d d' where
  others l _ := Or.inl (h l)
  whole := Or.inl (h _)
  done hok := by cases hok
  failed _ _ _ := h

/-- **A failed attempt before another leaves no trace**, but for what it cannot remove. -/
theorem after_failed (h : Replaces cwd p t clears (.error e) d d₁)
    (h' : Replaces cwd p t clears r d₁ d₂) : Replaces cwd p t clears r d d₂ where
  others l hl := by
    rcases h'.others l hl with hsame | ⟨hnot, hnone, hnamed⟩
    · rw [hsame]
      exact h.others l hl
    · rcases h.others l hl with hsame | hleft
      · exact Or.inr ⟨hnot, hsame ▸ hnone, hnamed⟩
      · exact Or.inr hleft
  whole := by
    rcases h'.whole with hsame | hnew
    · rw [hsame]
      exact h.whole
    · exact Or.inr hnew
  done := h'.done
  failed hclears e' he' l := (h'.failed hclears e' he' l).trans (h.failed hclears e rfl l)

/-- Once the new file has been moved, all is well with the files, whatever is said about it. -/
theorem of_replaceBy {file : Location} (hnew : IsNew d cwd p file)
    (h : replaceBy (d.insert file (.file (Utf8.encode t))) cwd file (Utf8.encode t) p = .ok d')
    (hfailed : ∀ e, r = .error e → ¬clears) : Replaces cwd p t clears r d d' := by
  have hentry := ((put_of_replaceBy hnew h).done rfl).2
  refine ⟨fun l hl => Or.inl (content?_congr ?_), Or.inr ?_, fun _ => readBytes_of_replaceBy hnew h,
    fun hclears e he => absurd hclears (hfailed e he)⟩
  · rw [hentry, if_neg hl]
  · rw [content?_eq_some_iff, hentry, if_pos rfl]

end Replaces

variable {clears : Prop} {c : Conditions} {r : Except FileFault Unit}

theorem replaces_putText (hclears : clears → c.removing = none)
    (h : d.putText cwd p t c = (r, d')) : Replaces cwd p t clears r d d' := by
  cases putting_putText h with
  | refused f => exact .of_content fun _ => rfl
  | moved hnew hreplace => exact .of_replaceBy hnew hreplace (fun e he => by cases he)
  | removed f hnew => exact .of_content fun l => content?_congr (hnew.entry?_erase l)
  | @left file f bytes hnew hrefused =>
    have hnot : ¬clears := fun h => hrefused (hclears h)
    have hentry : ∀ l, l ≠ file → entry? (d.insert file (.file bytes)) l = d.entry? l := by
      intro l hl
      rw [entry?_insert d hnew.ne_nil, if_neg hl]
    refine ⟨fun l _ => ?_, Or.inl (content?_congr (hentry _ hnew.ne_target.symm)),
      (fun h => by cases h), fun h => absurd h hnot⟩
    by_cases hl : l = file
    · refine Or.inr ⟨hnot, ?_, hl ▸ hnew.named⟩
      rw [hl, content?, hnew.free]
    · exact Or.inl (content?_congr (hentry l hl))
  | movedBefore f hnew hreplace hrefused =>
    exact .of_replaceBy hnew hreplace fun _ _ h => hrefused (hclears h)

theorem replaces_writeText (hclears : clears → c.removing = none)
    (h : d.writeText cwd p t c = (r, d')) : Replaces cwd p t clears r d d' := by
  unfold writeText at h
  split at h
  · rename_i f d₁ hmake
    cases h
    exact .of_content (made_makeDirectories cwd _ d hmake).paved.content?
  · rename_i d₁ hmake
    have hmade : Replaces cwd p t clears (.error (FileFault.disk ⟨.missing, [], none⟩)) d d₁ :=
      .of_content (made_makeDirectories cwd _ d hmake).paved.content?
    exact hmade.after_failed (replaces_putText hclears h)

end Disk

namespace Project

open Disk (Replaces IsLeftover)

/-- The system lets new files beside the file at a path be removed, whenever that is tried. -/
def System.Clears (system : System) (p : Path) : Prop :=
  ∀ n, (system.conditions p n).removing = none

theorem replaces_storeText (system : System) (d : Disk) (cwd p : Path) (t : Text)
    (patience : Patience) :
    Replaces cwd p t (system.Clears p) (storeText system d cwd p t patience).result d
      (storeText system d cwd p t patience).disk := by
  obtain ⟨r, hreplaces, hresult⟩ := withRetries_spec system p
    (fun c d => d.writeText cwd p t c) (Q := fun _ => True)
    (R := fun r d d' => Replaces cwd p t (system.Clears p) r d d')
    (fun n d _ => ⟨trivial, Disk.replaces_writeText (fun hclears => hclears n) rfl⟩)
    (fun e r d d₁ d₂ h h' => h.after_failed h') "write " patience (d := d) trivial
  unfold storeText
  refine ⟨hreplaces.others, hreplaces.whole, fun hok => ?_, fun hclears e herror => ?_⟩
  · rw [hok] at hresult
    exact hreplaces.done (eq_ok_of_toOption hresult.symm)
  · rw [herror] at hresult
    cases r with
    | ok done => cases hresult
    | error f => exact hreplaces.failed hclears f rfl

/-! ## 3. One source -/

section Compile

variable (system : System) (d : Disk) (cwd source output : Path) (plan : Plan)

/-- Building a source ends before anything is written, or is a write of the expansion. -/
theorem compile_cases :
    (∃ e, (fetchText system d cwd source plan.patience).result = .error e ∧
      (compile system d cwd source output plan.names plan.patience).result = .error e ∧
      (compile system d cwd source output plan.names plan.patience).disk = d) ∨
    ∃ t stored, d.readText cwd source = .ok t ∧
      (storeText system d cwd output (expand plan.names t).text plan.patience).result = stored ∧
      (compile system d cwd source output plan.names plan.patience).result =
        stored.map (fun _ => (expand plan.names t).expansions) ∧
      Replaces cwd output (expand plan.names t).text (system.Clears output) stored d
        (compile system d cwd source output plan.names plan.patience).disk := by
  cases hfetch : (fetchText system d cwd source plan.patience).result with
  | error e =>
    obtain ⟨hresult, hdisk⟩ := compile_of_error output plan.names hfetch
    exact Or.inl ⟨e, rfl, hresult, hdisk⟩
  | ok t =>
    obtain ⟨hresult, hdisk⟩ := compile_of_ok output plan.names hfetch
    refine Or.inr ⟨t, _, readText_of_fetchText hfetch, rfl, hresult, ?_⟩
    rw [hdisk]
    exact replaces_storeText system d cwd output (expand plan.names t).text plan.patience

end Compile

/-- **Building a source changes no file but its output**, and leaves at most new files that the
system does not let be removed. -/
theorem others_buildFileUntimed {system : System} {cwd root source out : Path} {plan : Plan}
    (hout : Path.output cwd source root plan.generatedDir plan.outputSuffix = .ok out) (d : Disk)
    {l : Location} (hl : l ≠ Path.resolvedParts cwd out) :
    (buildFileUntimed system d cwd root source plan).disk.content? l = d.content? l ∨
      ¬system.Clears out ∧ IsLeftover d cwd out l := by
  rw [buildFileUntimed_disk hout]
  rcases compile_cases system d cwd source out plan with
    ⟨e, -, -, hdisk⟩ | ⟨t, stored, -, -, -, hreplaces⟩
  · exact Or.inl (by rw [hdisk])
  · exact hreplaces.others l hl

end Project

end InlineMarkup
