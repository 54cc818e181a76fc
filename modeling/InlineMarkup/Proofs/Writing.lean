import InlineMarkup.Proofs.Directories

/-!
# Writing files

A text goes into a new file first, under a name that is not taken (`entry?_temporaryName`), and that
file is gone when the writing is over.  So all that a write changes is its target, and directories
on the way there (`put_putText`).

Once the directory of a target is there, nothing on the disk but a directory at the target can be in
the way of a write: the rest is a matter of names and paths (`obstacle?`, `result_putText`).  A
directory stays where it is, and so does a file, so a write that has failed goes on failing and one
that has succeeded goes on succeeding, on every disk that grows from where it ended
(`verdict_writeText`).
-/

namespace InlineMarkup.Disk

/-! ## 1. Names for new files -/

theorem ofDigitChars_eightDigits (n : Nat) : Nat.ofDigitChars 10 (eightDigits n) 0 = n := by
  rw [eightDigits, Text.ofNat, Nat.ofDigitChars_append, Nat.ofDigitChars_replicate_zero,
    Nat.mul_zero, Nat.ofDigitChars_ten_toDigits]

/-- The names for new files differ. -/
theorem temporary_injective (suffix : Text) : Function.Injective (temporary suffix) := by
  intro m n h
  rw [temporary, temporary, List.append_left_inj, List.append_right_inj] at h
  rw [← ofDigitChars_eightDigits m, h, ofDigitChars_eightDigits]

/-- Among one more name than there are in a directory, one is not taken. -/
theorem exists_temporary_not_taken (taken : List Text) (suffix : Text) :
    ∃ n ∈ List.range (taken.length + 1), temporary suffix n ∉ taken := by
  by_contra hall
  push Not at hall
  have hsubset : (List.range (taken.length + 1)).map (temporary suffix) ⊆ taken := by
    intro name hname
    obtain ⟨n, hn, rfl⟩ := List.mem_map.mp hname
    exact hall n hn
  have hnodup : ((List.range (taken.length + 1)).map (temporary suffix)).Nodup :=
    List.nodup_range.map (temporary_injective suffix)
  have hle := (List.subperm_of_subset hnodup hsubset).length_le
  rw [List.length_map, List.length_range] at hle
  omega

theorem mem_namesIn {d : Disk} {l : Location} {name : Text} {e : Entry}
    (h : d.entry? (l ++ [name]) = some e) : name ∈ d.namesIn l := by
  have hmem := mem_entries_of_found (by simp) h
  refine List.mem_filterMap.mpr ⟨_, hmem, ?_⟩
  simp

/-- **A new file takes no one's place**, and not the target's either. -/
theorem temporaryName_notMem (d : Disk) (l : Location) (target suffix : Text) :
    d.temporaryName l target suffix ∉ target :: d.namesIn l := by
  obtain ⟨n, hn, hfree⟩ := exists_temporary_not_taken (target :: d.namesIn l) suffix
  unfold temporaryName
  dsimp only
  split
  · rename_i k hk
    simpa using List.find?_some hk
  · rename_i hnone
    exact absurd (List.find?_eq_none.mp hnone n hn) (by simpa using hfree)

theorem exists_temporaryName (d : Disk) (l : Location) (target suffix : Text) :
    ∃ n, d.temporaryName l target suffix = temporary suffix n := by
  unfold temporaryName
  dsimp only
  split
  · exact ⟨_, rfl⟩
  · exact ⟨_, rfl⟩

/-- A location for a new file, beside the file that is to be written. -/
structure IsNew (d : Disk) (cwd p : Path) (file : Location) : Prop where
  free : d.entry? file = none
  ne_nil : file ≠ []
  ne_target : file ≠ Path.resolvedParts cwd p
  named : ∃ n, file = (named (Path.absolute cwd p.parent) (temporary p.suffix n)).parts

theorem isNew_temporaryName (d : Disk) (cwd p : Path) :
    IsNew d cwd p (named (Path.absolute cwd p.parent) (d.temporaryName
      (Path.absolute cwd p.parent).parts (Path.absolute cwd p).name p.suffix)).parts := by
  obtain ⟨n, hn⟩ := exists_temporaryName d (Path.absolute cwd p.parent).parts
    (Path.absolute cwd p).name p.suffix
  have hnot := temporaryName_notMem d (Path.absolute cwd p.parent).parts (Path.absolute cwd p).name
    p.suffix
  rw [hn] at hnot ⊢
  refine ⟨?_, by simp [Disk.named], fun heq => ?_, n, rfl⟩
  · cases he : d.entry? ((Path.absolute cwd p.parent).parts ++ [temporary p.suffix n]) with
    | none => exact he
    | some e => exact absurd (List.mem_cons_of_mem _ (mem_namesIn he)) hnot
  · refine hnot (List.mem_cons.mpr (Or.inl ?_))
    have hname : (Path.absolute cwd p).name = (Path.resolvedParts cwd p).getLastD [] := rfl
    rw [hname, ← heq, Disk.named, List.getLastD_concat]

/-! ## 2. Putting a text into a file -/

variable {d d' : Disk} {cwd p q : Path} {l : Location} {name t : Text} {folders : List Text}

theorem erase_insert (d : Disk) (l : Location) (e : Entry) :
    (d.insert l e).erase l = d.erase l := by
  have htwice : (d.erase l).entries.filter (fun x => x.1 != l) = (d.erase l).entries := by
    rw [erase, List.filter_filter]
    simp
  rw [insert, erase, List.filter_append, htwice]
  simp

theorem replaceBy_eq_ok {file : Location} {bytes : List UInt8}
    (h : d.replaceBy cwd file bytes p = .ok d') :
    ∃ directory name, d.place cwd p = .ok (.named directory name) ∧
      d.entry? (directory ++ [name]) ≠ some .directory ∧
      d' = (d.erase file).insert (directory ++ [name]) (.file bytes) := by
  unfold replaceBy at h
  split at h
  · cases h
  · cases h
  · rename_i directory name hplace
    split at h
    · cases h
    · rename_i hdir
      cases h
      exact ⟨directory, name, hplace, hdir, rfl⟩

/-- What an attempt at putting a text into a file leads to: a tree stays one, and only the file at
the target is another, if the attempt succeeds. -/
structure Put (cwd p : Path) (t : Text) (d : Disk) (r : Except FileFault Unit) (d' : Disk) :
    Prop where
  tree : d.IsTree → d'.IsTree
  done : r = .ok () → d.entry? (Path.resolvedParts cwd p) ≠ some .directory ∧ ∀ l, d'.entry? l =
    if l = Path.resolvedParts cwd p then some (.file (Utf8.encode t)) else d.entry? l
  failed : ∀ f, r = .error f → ∀ l, d'.entry? l = d.entry? l

theorem Put.grows {r : Except FileFault Unit} (h : Put cwd p t d r d') : Grows d d' := by
  cases r with
  | error f =>
    have hsame := h.failed f rfl
    exact ⟨fun hl => (hsame _).trans hl, fun hl => ⟨_, (hsame _).trans hl⟩⟩
  | ok done =>
    obtain ⟨hdir, hentry⟩ := h.done rfl
    refine ⟨fun {k} hk => ?_, fun {k bytes} hk => ?_⟩
    · rw [hentry, if_neg]
      · exact hk
      · rintro rfl
        exact hdir hk
    · rw [hentry]
      split
      · exact ⟨_, rfl⟩
      · exact ⟨bytes, hk⟩

/-- What an attempt at putting a text into a file can do. -/
inductive Putting (cwd p : Path) (t : Text) (c : Conditions) (d : Disk) :
    Except FileFault Unit → Disk → Prop where
  /-- There is no new file. -/
  | refused (f : FileFault) : Putting cwd p t c d (.error f) d
  /-- The new file has been moved to the target. -/
  | moved {file : Location} {d' : Disk} (hnew : IsNew d cwd p file)
      (hreplace : replaceBy (d.insert file (.file (Utf8.encode t))) cwd file (Utf8.encode t) p =
        .ok d') : Putting cwd p t c d (.ok ()) d'
  /-- The new file has not been moved, and has been removed. -/
  | removed {file : Location} (f : FileFault) (hnew : IsNew d cwd p file) :
      Putting cwd p t c d (.error f) (d.erase file)
  /-- The new file has not been moved, and cannot be removed. -/
  | left {file : Location} (f : FileFault) (bytes : List UInt8) (hnew : IsNew d cwd p file)
      (hremoving : c.removing ≠ none) : Putting cwd p t c d (.error f) (d.insert file (.file bytes))
  /-- The new file has been moved to the target, and removing it is refused all the same. -/
  | movedBefore {file : Location} {d' : Disk} (f : FileFault) (hnew : IsNew d cwd p file)
      (hreplace : replaceBy (d.insert file (.file (Utf8.encode t))) cwd file (Utf8.encode t) p =
        .ok d') (hremoving : c.removing ≠ none) : Putting cwd p t c d (.error f) d'

theorem fillAndMove_cases {file : Path} {bytes : List UInt8} {c : Conditions}
    {r : Except FileFault Unit} (h : d.fillAndMove cwd file bytes p c = (r, d')) :
    (∃ f part, r = .error f ∧ d' = d.insert file.parts (.file part)) ∨
      r = .ok () ∧
        replaceBy (d.insert file.parts (.file bytes)) cwd file.parts bytes p = .ok d' := by
  unfold fillAndMove at h
  split at h
  · cases h
    exact Or.inl ⟨_, _, rfl, rfl⟩
  · dsimp only at h
    split at h
    · cases h
      exact Or.inl ⟨_, _, rfl, rfl⟩
    · split at h
      · rename_i hreplace
        cases h
        exact Or.inr ⟨rfl, hreplace⟩
      · cases h
        exact Or.inl ⟨_, _, rfl, rfl⟩

/-- **What an attempt at putting a text into a file does**, whatever is refused. -/
theorem putting_putText {c : Conditions} {r : Except FileFault Unit}
    (h : d.putText cwd p t c = (r, d')) : Putting cwd p t c d r d' := by
  unfold putText at h
  dsimp only at h
  split at h
  · cases h
    exact .refused _
  · split at h
    · cases h
      exact .refused _
    · have hnew := isNew_temporaryName d cwd p
      generalize named (Path.absolute cwd p.parent) (d.temporaryName
        (Path.absolute cwd p.parent).parts (Path.absolute cwd p).name p.suffix) = file at h hnew
      obtain ⟨⟨r₁, d₁⟩, hmove⟩ : ∃ moved, d.fillAndMove cwd file (Utf8.encode t) p c = moved :=
        ⟨_, rfl⟩
      rw [hmove] at h
      unfold removeNew at h
      cases hremoving : c.removing with
      | some refusal =>
        have hrefused : c.removing ≠ none := by simp [hremoving]
        rw [hremoving] at h
        cases h
        rcases fillAndMove_cases hmove with ⟨f, part, -, rfl⟩ | ⟨-, hreplace⟩
        · exact .left _ part hnew hrefused
        · exact .movedBefore _ hnew hreplace hrefused
      | none =>
        rw [hremoving] at h
        rcases fillAndMove_cases hmove with ⟨f, part, rfl, rfl⟩ | ⟨rfl, hreplace⟩
        · cases h
          rw [erase_insert]
          exact .removed f hnew
        · cases h
          exact .moved hnew hreplace

/-- What stands where when a new file has been removed. -/
theorem IsNew.entry?_erase {file : Location} (h : IsNew d cwd p file) (l : Location) :
    entry? (d.erase file) l = d.entry? l := by
  rw [Disk.entry?_erase d h.ne_nil]
  split
  · rename_i hl
    rw [hl, h.free]
  · rfl

/-- What moving a new file to the target leads to. -/
theorem put_of_replaceBy {file : Location} (hnew : IsNew d cwd p file)
    (h : replaceBy (d.insert file (.file (Utf8.encode t))) cwd file (Utf8.encode t) p = .ok d') :
    Put cwd p t d (.ok ()) d' := by
  obtain ⟨above, name, hplace, hdir, rfl⟩ := replaceBy_eq_ok h
  obtain ⟨-, habove, hname, hresolved, -⟩ := place_eq_named hplace
  rw [entry?_insert d hnew.ne_nil] at hdir habove
  rw [erase_insert]
  have habove' : entry? (d.erase file) above = some .directory := by
    rw [hnew.entry?_erase]
    split at habove
    · cases habove
    · exact habove
  have htarget : d.entry? (above ++ [name]) ≠ some .directory := by
    split at hdir
    · rename_i hk
      rw [hk, hnew.free]
      exact nofun
    · exact hdir
  have hnot : d.entry? file ≠ some .directory := by
    rw [hnew.free]
    exact nofun
  refine ⟨fun htree => ?_, fun _ => hresolved ▸ ⟨htarget, fun k => ?_⟩, nofun⟩
  · refine (htree.erase hnew.ne_nil hnot).insert habove' hname fun hthere => ?_
    rw [hnew.entry?_erase] at hthere
    exact absurd hthere htarget
  · rw [entry?_insert _ (by simp), hnew.entry?_erase]

/-- **Putting a text into a file changes nothing but that file**, if a new file can be removed. -/
theorem put_putText {c : Conditions} {r : Except FileFault Unit} (hremoving : c.removing = none)
    (h : d.putText cwd p t c = (r, d')) : Put cwd p t d r d' := by
  cases putting_putText h with
  | refused f => exact ⟨fun htree => htree, nofun, fun _ _ _ => rfl⟩
  | moved hnew hreplace => exact put_of_replaceBy hnew hreplace
  | removed f hnew =>
    refine ⟨fun htree => htree.erase hnew.ne_nil ?_, nofun, fun _ _ => hnew.entry?_erase⟩
    rw [hnew.free]
    exact nofun
  | left f bytes hnew hrefused => exact absurd hremoving hrefused
  | movedBefore f hnew hreplace hrefused => exact absurd hremoving hrefused

/-! ## 3. What is in the way -/

/-- Why a file cannot be moved to a path whose directory is there, if that is a matter of names. -/
def obstacleAt? (p : Path) : Option Reason :=
  match refusal? p with
  | some reason => some reason
  | none =>
    if p.name = Path.above then some .busy
    else if isTooLong p.name then some .nameTooLong
    else none

/-- Why a text cannot be put into a file whose directory is there, if that is a matter of names. -/
def obstacle? (cwd p : Path) : Option Reason :=
  let name := temporary p.suffix 0
  match refusal? (named (Path.absolute cwd p.parent) name) with
  | some reason => some reason
  | none => if isTooLong name then some .nameTooLong else obstacleAt? p

/-- Why a file cannot take the place of what is there, if it cannot. -/
def taken? : Option Entry → Option Reason
  | some .directory => some .isDirectory
  | _ => none

theorem taken?_of_ne {e : Option Entry} (h : e ≠ some .directory) : taken? e = none := by
  unfold taken?
  split
  · exact absurd rfl h
  · rfl

/-- A new file is in no one's way, wherever the target is. -/
theorem taken?_insert {file : Location} (hne : file ≠ []) (hfree : d.entry? file = none)
    (bytes : List UInt8) (l : Location) :
    (taken? <| entry? (d.insert file (.file bytes)) l) = taken? (d.entry? l) := by
  rw [entry?_insert d hne]
  split
  · rename_i hl
    rw [hl, hfree]
    rfl
  · rfl

theorem obstacle?_ne_missing (cwd p : Path) : obstacle? cwd p ≠ some .missing := by
  have hrefusal : ∀ {p reason}, refusal? p = some reason → some reason ≠ some .missing := by
    rintro p reason h
    rcases refusal?_cases h with ⟨rfl, -⟩ | rfl <;> exact nofun
  have hat : obstacleAt? p ≠ some .missing := by
    unfold obstacleAt?
    split
    · rename_i h
      exact hrefusal h
    · split
      · exact nofun
      · split <;> exact nofun
  unfold obstacle?
  dsimp only
  split
  · rename_i h
    exact hrefusal h
  · split
    · exact nofun
    · exact hat

theorem ne_above_of_obstacle? (h : obstacle? cwd p = none) : p.name ≠ Path.above := by
  intro habove
  unfold obstacle? at h
  dsimp only at h
  split at h
  · cases h
  · split at h
    · cases h
    · rw [obstacleAt?, if_pos habove] at h
      split at h <;> cases h

theorem ne_missing_of_or_taken? {e : Option Entry} {reason : Reason}
    (h : (obstacle? cwd p).or (taken? e) = some reason) : reason ≠ .missing := by
  rintro rfl
  rcases Option.or_eq_some_iff.mp h with h | ⟨-, h⟩
  · exact obstacle?_ne_missing cwd p h
  · unfold taken? at h
    split at h <;> cases h

theorem slash_notMem_eightDigits (n : Nat) : '/' ∉ eightDigits n := by
  intro h
  rcases List.mem_append.mp h with h | h
  · exact absurd (List.eq_of_mem_replicate h) (by decide)
  · have hdigit := Nat.isDigit_of_mem_toDigits (by omega) (by omega) h
    exact absurd hdigit (by decide)

/-- The names for new files are proper, as long as the suffix holds no slash. -/
theorem isProper_temporary {suffix : Text} (h : '/' ∉ suffix) (n : Nat) :
    Path.IsProper (temporary suffix n) := by
  have hlong : 14 ≤ (temporary suffix n).length := by
    rw [temporary, List.length_append, List.length_append]
    exact Nat.le_trans (Nat.le_add_right _ _) (Nat.le_add_right _ _)
  have hne : ∀ {u : Text}, u.length < 14 → temporary suffix n ≠ u := by
    rintro u hu rfl
    omega
  refine ⟨hne (by decide), hne (by decide), hne (by decide), ?_⟩
  rw [temporary, List.mem_append, List.mem_append, not_or, not_or]
  exact ⟨⟨by decide, slash_notMem_eightDigits n⟩, h⟩

/-- A directory that is there is there under the path that its own path resolves to. -/
theorem Leads.absolute (h : Leads d cwd q l) (htree : d.IsTree)
    (haccepted : refusal? (Path.absolute cwd q) = none) : Leads d cwd (Path.absolute cwd q) l := by
  have hparts : (Path.absolute cwd q).parts = l := h.eq_resolvedParts.symm
  have hproper : ∀ name ∈ l, Path.IsProper name := fun name hname =>
    (htree.storable_of_found h.directory name hname).proper
  have hstart : startOf cwd (Path.absolute cwd q) = [] := by
    unfold startOf Path.absolute Path.isAbsolute
    cases q.anchor <;> rfl
  have hsteps : steps (Path.absolute cwd q) = l := by
    have := steps_of_isResolved (a := (Path.absolute cwd q).anchor) hproper
    rwa [← hparts] at this ⊢
  refine ⟨haccepted, ?_, h.directory⟩
  rw [hstart, hsteps]
  exact htree.follow (l := []) h.directory

/-- Nothing can be put under a name that leads up. -/
theorem place_of_above (h : Leads d cwd q l) (haccepted : refusal? (q.extend [Path.above]) = none) :
    d.place cwd (q.extend [Path.above]) = .ok .here := by
  have hsteps : steps (q.extend [Path.above]) = steps q ++ [Path.above] := by
    have hup : ([Path.above].flatMap (Text.splitAt '/')).filter (fun part => !part.isEmpty) =
        [Path.above] := by decide
    rw [steps, Path.extend, List.flatMap_append, List.filter_append, hup]
    rfl
  have hstart : startOf cwd (q.extend [Path.above]) = startOf cwd q := rfl
  unfold place locate
  dsimp only
  rw [haccepted, hsteps, List.dropLast_concat, hstart]
  simp [h.follow, bind, Except.bind, h.directory]

section Result

variable (hname : name = Path.above ∨ Path.IsProper name)

include hname

theorem slash_notMem_suffix : '/' ∉ (q.extend [name]).suffix := by
  have hslash : '/' ∉ name := by
    rcases hname with rfl | h
    · decide
    · exact h.noSlash
  have hlast : (q.extend [name]).name = name := Path.name_extend q [] name
  unfold Path.suffix
  rw [hlast]
  split
  · exact fun h => hslash (List.mem_of_mem_drop h)
  · exact List.not_mem_nil

theorem result_replaceBy (hleads : Leads d cwd q l) (file : Location) (bytes : List UInt8)
    {obstacle : Option Reason} (h : (obstacleAt? (q.extend [name])).or
      (taken? (d.entry? (Path.resolvedParts cwd (q.extend [name])))) = obstacle) :
    (∃ reason, d.replaceBy cwd file bytes (q.extend [name]) = .error reason ∧
      obstacle = some reason) ∨
    ∃ d', d.replaceBy cwd file bytes (q.extend [name]) = .ok d' ∧ obstacle = none := by
  have hlast : (q.extend [name]).name = name := Path.name_extend q [] name
  subst h
  unfold replaceBy obstacleAt?
  rw [hlast]
  cases hrefusal : refusal? (q.extend [name]) with
  | some reason =>
    rw [place_of_refusal hrefusal]
    exact Or.inl ⟨reason, rfl, rfl⟩
  | none =>
    rcases hname with rfl | hproper
    · rw [place_of_above hleads hrefusal]
      exact Or.inl ⟨.busy, rfl, rfl⟩
    · have htarget : Path.resolvedParts cwd (q.extend [name]) = l ++ [name] := by
        rw [hleads.eq_resolvedParts]
        exact Path.resolvedParts_append cwd q fun n hn => List.mem_singleton.mp hn ▸ hproper
      rw [htarget, place_of_leads hleads hproper hrefusal, if_neg hproper.ne_above]
      by_cases hlong : isTooLong name = true
      · rw [if_pos hlong, if_pos hlong]
        exact Or.inl ⟨.nameTooLong, rfl, rfl⟩
      · rw [if_neg hlong, if_neg hlong]
        dsimp only
        split
        · rename_i hdir
          rw [hdir]
          exact Or.inl ⟨.isDirectory, rfl, rfl⟩
        · rename_i hfree
          rw [taken?_of_ne hfree]
          exact Or.inr ⟨_, rfl, rfl⟩

omit hname in
theorem fillAndMove_of_ok {file : Path} {bytes : List UInt8}
    (h : replaceBy (d.insert file.parts (.file bytes)) cwd file.parts bytes p = .ok d') :
    d.fillAndMove cwd file bytes p {} = (.ok (), d') := by
  rw [fillAndMove]
  dsimp only
  rw [h]

omit hname in
theorem fillAndMove_of_error {file : Path} {bytes : List UInt8} {reason : Reason}
    (h : replaceBy (d.insert file.parts (.file bytes)) cwd file.parts bytes p = .error reason) :
    d.fillAndMove cwd file bytes p {} =
      (.error (.disk ⟨reason, file.text, some p.text⟩), d.insert file.parts (.file bytes)) := by
  rw [fillAndMove]
  dsimp only
  rw [h]

/-- **What an attempt comes to is known from names, paths and what is at the target.** -/
theorem result_putText (htree : d.IsTree) (hleads : Leads d cwd q l) (t : Text)
    {obstacle : Option Reason} (h : (obstacle? cwd (q.extend [name])).or
      (taken? (d.entry? (Path.resolvedParts cwd (q.extend [name])))) = obstacle) :
    (∃ f, (d.putText cwd (q.extend [name]) t).1 = .error (.disk f) ∧ obstacle = some f.reason) ∨
    (d.putText cwd (q.extend [name]) t).1 = .ok () ∧ obstacle = none := by
  have hparent : (q.extend [name]).parent = q := by
    have := Path.parent_extend q [] name
    rwa [List.nil_append, Path.extend_nil] at this
  have htemporary := isProper_temporary (slash_notMem_suffix (q := q) hname) 0
  subst h
  unfold putText obstacle?
  dsimp only
  rw [hparent]
  generalize hsuffix : (q.extend [name]).suffix = suffix at htemporary ⊢
  have hfirst : named (Path.absolute cwd q) (temporary suffix 0) =
      (Path.absolute cwd q).extend [temporary suffix 0] := rfl
  cases hrefusal : refusal? (named (Path.absolute cwd q) (temporary suffix 0)) with
  | some reason =>
    rw [place_of_refusal hrefusal]
    exact Or.inl ⟨_, rfl, rfl⟩
  | none =>
    have habsolute := hleads.absolute htree (refusal?_of_extend htemporary.ne_nil hrefusal)
    rw [hfirst, place_of_leads habsolute htemporary hrefusal]
    by_cases hlong : isTooLong (temporary suffix 0) = true
    · rw [if_pos hlong]
      exact Or.inl ⟨_, rfl, by rw [if_pos hlong]; rfl⟩
    · rw [if_neg hlong]
      dsimp only
      rw [if_neg hlong]
      have hnew := isNew_temporaryName d cwd (q.extend [name])
      rw [hparent, hsuffix] at hnew
      generalize named (Path.absolute cwd q) (d.temporaryName (Path.absolute cwd q).parts
        (Path.absolute cwd (q.extend [name])).name suffix) = file at hnew ⊢
      have hgrows : Grows d (d.insert file.parts (.file (Utf8.encode t))) :=
        .insert_file hnew.ne_nil (by rw [hnew.free]; exact nofun)
      have htaken := taken?_insert hnew.ne_nil hnew.free (Utf8.encode t)
        (Path.resolvedParts cwd (q.extend [name]))
      rcases result_replaceBy hname (hleads.grows hgrows) file.parts (Utf8.encode t) rfl with
        ⟨reason, hreplace, hobstacle⟩ | ⟨d', hreplace, hobstacle⟩
      · rw [fillAndMove_of_error hreplace]
        exact Or.inl ⟨_, rfl, htaken ▸ hobstacle⟩
      · rw [fillAndMove_of_ok hreplace]
        exact Or.inr ⟨rfl, htaken ▸ hobstacle⟩

end Result

/-! ## 4. Whole writes -/

/-- What an attempt at a write leads to: a tree stays one, the disk grows, no file but the target is
another, and the target holds the text if the attempt succeeds. -/
structure Written (cwd p : Path) (t : Text) (d : Disk) (r : Except FileFault Unit) (d' : Disk) :
    Prop where
  tree : d.IsTree → d'.IsTree
  grows : Grows d d'
  entry : ∀ l, d'.entry? l = d.entry? l ∨ d.entry? l = none ∧ OnTheWay cwd p.parent l ∨
    r = .ok () ∧ l = Path.resolvedParts cwd p
  content : ∀ l, l ≠ Path.resolvedParts cwd p → d'.content? l = d.content? l
  done : r = .ok () → d'.content? (Path.resolvedParts cwd p) = some (Utf8.encode t)
  failed : ∀ f, r = .error f → ∀ l, d'.content? l = d.content? l

/-- **A write changes its target and makes directories on the way to it, and that is all**, if a new
file can be removed. -/
theorem written_writeText {c : Conditions} {r : Except FileFault Unit}
    (hremoving : c.removing = none) (h : d.writeText cwd p t c = (r, d')) :
    Written cwd p t d r d' := by
  unfold writeText at h
  split at h
  · rename_i f d₁ hmake
    cases h
    have hmade := made_makeDirectories cwd _ d hmake
    refine ⟨hmade.tree, hmade.paved.grows, fun l => ?_, fun l _ => hmade.paved.content? l,
      (fun h => by cases h), fun _ _ => hmade.paved.content?⟩
    rcases hmade.paved l with hl | ⟨hnone, -, hway⟩
    · exact Or.inl hl
    · exact Or.inr (Or.inl ⟨hnone, hway⟩)
  · rename_i d₁ hmake
    have hmade := made_makeDirectories cwd _ d hmake
    have hput := put_putText hremoving h
    have hentry : ∀ l, d'.entry? l = d₁.entry? l ∨ r = .ok () ∧ l = Path.resolvedParts cwd p := by
      intro l
      cases r with
      | error f => exact Or.inl (hput.failed f rfl l)
      | ok done =>
        rw [(hput.done rfl).2]
        split
        · rename_i hl
          exact Or.inr ⟨rfl, hl⟩
        · exact Or.inl rfl
    refine ⟨fun htree => hput.tree (hmade.tree htree), hmade.paved.grows.trans hput.grows,
      fun l => ?_, fun l hl => ?_, fun hr => ?_, fun f hf l => ?_⟩
    · rcases hentry l with hl | hl
      · rcases hmade.paved l with hl' | ⟨hnone, -, hway⟩
        · exact Or.inl (hl.trans hl')
        · exact Or.inr (Or.inl ⟨hnone, hway⟩)
      · exact Or.inr (Or.inr hl)
    · rcases hentry l with hl' | ⟨-, hl'⟩
      · rw [content?_congr hl', hmade.paved.content?]
      · exact absurd hl' hl
    · rw [content?_eq_some_iff, (hput.done hr).2, if_pos rfl]
    · rw [content?_congr (hput.failed f hf l), hmade.paved.content?]

/-- How an attempt ends: well, or with a fault that may pass or may not. -/
def verdict {α : Type} : Except FileFault α → Option Bool
  | .ok _ => none
  | .error f => some f.mayPass

theorem verdict_putText (htree : d.IsTree) (hleads : Leads d cwd q l)
    (hname : name = Path.above ∨ Path.IsProper name) (t : Text) :
    verdict (d.putText cwd (q.extend [name]) t).1 =
      ((obstacle? cwd (q.extend [name])).or
        (taken? (d.entry? (Path.resolvedParts cwd (q.extend [name]))))).map
          (· != .embeddedNul) := by
  generalize h : (obstacle? cwd (q.extend [name])).or
    (taken? (d.entry? (Path.resolvedParts cwd (q.extend [name])))) = obstacle
  rcases result_putText hname htree hleads t h with ⟨f, hresult, rfl⟩ | ⟨hresult, rfl⟩
  · rw [hresult]
    simp [verdict, FileFault.mayPass, FileFault.isOfSystem, FileFault.isMissing,
      ne_missing_of_or_taken? h, bne]
  · rw [hresult]
    rfl

/-- **Putting a text into a file ends as it has ended before**, on every disk that grows from where
it ended. -/
theorem verdict_putText_again (htree : d.IsTree) (hleads : Leads d cwd q l)
    (hname : name = Path.above ∨ Path.IsProper name) {r : Except FileFault Unit}
    (h : d.putText cwd (q.extend [name]) t = (r, d')) {d₂ : Disk} (hgrows : Grows d' d₂)
    (htree₂ : d₂.IsTree) (u : Text) :
    verdict (d₂.putText cwd (q.extend [name]) u).1 = verdict r := by
  have hput := put_putText rfl h
  have hgrows₂ : Grows d d₂ := hput.grows.trans hgrows
  have hr := verdict_putText htree hleads hname t
  rw [h] at hr
  rw [verdict_putText htree₂ (hleads.grows hgrows₂) hname u, hr]
  generalize obstacle? cwd (q.extend [name]) = obstacle at hr ⊢
  cases obstacle with
  | some reason => rfl
  | none =>
    rw [Option.none_or, Option.none_or]
    by_cases hdir : d.entry? (Path.resolvedParts cwd (q.extend [name])) = some .directory
    · rw [hdir, hgrows₂.directory hdir]
    · -- the attempt has succeeded, so a file is there
      rw [taken?_of_ne hdir] at hr ⊢
      have hok : r = .ok () := by
        cases r with
        | ok done => rfl
        | error f => cases hr
      have hnew : d'.entry? (Path.resolvedParts cwd (q.extend [name])) =
          some (.file (Utf8.encode t)) := by
        rw [(hput.done hok).2, if_pos rfl]
      obtain ⟨bytes, hfile⟩ := hgrows.file hnew
      rw [hfile]
      rfl

/-- The file a write is about, behind a path that leads to a directory: some folders and a name. -/
structure Behind (d : Disk) (cwd q : Path) (l : Location) (folders : List Text) (name : Text) :
    Prop where
  leads : Leads d cwd q l
  folders : ∀ folder ∈ folders, Path.IsProper folder
  name : name = Path.above ∨ Path.IsProper name

theorem Behind.grows (h : Behind d cwd q l folders name) (hgrows : Grows d d') :
    Behind d' cwd q l folders name := ⟨h.leads.grows hgrows, h.folders, h.name⟩

section Behind

variable (hbehind : Behind d cwd q l folders name)

include hbehind

theorem Behind.leads_folders {r : Except Fault Unit}
    (h : d.makeDirectories cwd (q.extend folders) = (r, d')) (hr : r = .ok ()) :
    Leads d' cwd (q.extend folders) (l ++ folders) := by
  have := (made_makeDirectories cwd _ d h).leads hr
  rwa [Path.resolvedParts_append cwd q hbehind.folders, ← hbehind.leads.eq_resolvedParts] at this

/-- The faults of a write are the disk's, and are not that something is missing. -/
theorem Behind.fault (htree : d.IsTree) {f : FileFault}
    (h : d.writeText cwd (q.extend (folders ++ [name])) t = (.error f, d')) :
    ∃ g, f = .disk g ∧ g.reason ≠ .missing := by
  unfold writeText at h
  rw [Path.parent_extend] at h
  split at h
  · rename_i g d₁ hmake
    cases h
    exact ⟨g, rfl, (mayPass_of_makeDirectories hbehind.leads hbehind.folders hmake).1⟩
  · rename_i d₁ hmake
    have hleads := hbehind.leads_folders hmake rfl
    have htree₁ := (made_makeDirectories cwd _ d hmake).tree htree
    rw [Path.extend_append] at h
    have hresult : (d₁.putText cwd ((q.extend folders).extend [name]) t).1 = .error f := by rw [h]
    rcases result_putText hbehind.name htree₁ hleads t rfl with ⟨g, hg, hobstacle⟩ | ⟨hok, -⟩
    · rw [hresult] at hg
      cases hg
      exact ⟨g, rfl, ne_missing_of_or_taken? hobstacle⟩
    · rw [hresult] at hok
      cases hok

/-- A write that succeeds is one to a proper name. -/
theorem Behind.isProper_name (htree : d.IsTree)
    (h : d.writeText cwd (q.extend (folders ++ [name])) t = (.ok (), d')) : Path.IsProper name := by
  refine hbehind.name.resolve_left fun habove => ?_
  unfold writeText at h
  rw [Path.parent_extend] at h
  split at h
  · cases h
  · rename_i d₁ hmake
    have htree₁ := (made_makeDirectories cwd _ d hmake).tree htree
    rw [Path.extend_append] at h
    rcases result_putText hbehind.name htree₁ (hbehind.leads_folders hmake rfl) t rfl with
      ⟨f, hf, -⟩ | ⟨-, hnone⟩
    · rw [h] at hf
      cases hf
    · refine ne_above_of_obstacle? (Option.or_eq_none_iff.mp hnone).1 ?_
      rw [← habove]
      exact Path.name_extend (q.extend folders) [] name

/-- **What is not behind the path stays as it is.** -/
theorem Behind.outside (htree : d.IsTree) {r : Except FileFault Unit}
    (h : d.writeText cwd (q.extend (folders ++ [name])) t = (r, d')) {k : Location}
    (hk : ¬l <+: k) : d'.entry? k = d.entry? k := by
  have hl := hbehind.leads.eq_resolvedParts
  rcases (written_writeText rfl h).entry k with heq | ⟨hnone, hway⟩ | ⟨rfl, rfl⟩
  · exact heq
  · rw [Path.parent_extend] at hway
    obtain ⟨n, rfl⟩ := hway
    have hparts : (q.extend folders).parts.take n =
        q.parts.take n ++ folders.take (n - q.parts.length) :=
      List.take_append
    have hanchor : (q.extend folders).anchor = q.anchor := rfl
    rw [hparts, hanchor] at hnone hk
    by_cases hn : n ≤ q.parts.length
    · rw [Nat.sub_eq_zero_of_le hn, List.take_zero, List.append_nil] at hnone
      exact absurd hnone (hbehind.leads.ne_none_of_onTheWay ⟨n, rfl⟩)
    · rw [List.take_of_length_le (by omega)] at hk
      refine absurd ?_ hk
      have hextend : Path.resolvedParts cwd (q.extend (folders.take (n - q.parts.length))) = _ :=
        Path.resolvedParts_append cwd q fun f hf => hbehind.folders f (List.mem_of_mem_take hf)
      rw [Path.extend, ← hl] at hextend
      rw [hextend]
      exact List.prefix_append _ _
  · refine absurd ?_ hk
    have hproper : ∀ n ∈ folders ++ [name], Path.IsProper n := by
      intro n hn
      rcases List.mem_append.mp hn with hn | hn
      · exact hbehind.folders n hn
      · rw [List.mem_singleton.mp hn]
        exact hbehind.isProper_name htree h
    rw [Path.resolvedParts_append cwd q hproper, ← hl]
    exact List.prefix_append _ _

/-- **A write ends as it has ended before**, on every disk that grows from where it ended. -/
theorem Behind.verdict_writeText (htree : d.IsTree) {r : Except FileFault Unit}
    (h : d.writeText cwd (q.extend (folders ++ [name])) t = (r, d')) {d₂ : Disk}
    (hgrows : Grows d' d₂) (htree₂ : d₂.IsTree) (u : Text) :
    verdict (d₂.writeText cwd (q.extend (folders ++ [name])) u).1 = verdict r := by
  have hgrows₂ : Grows d d₂ := (written_writeText rfl h).grows.trans hgrows
  unfold writeText at h ⊢
  rw [Path.parent_extend] at h ⊢
  split at h
  · rename_i f d₁ hmake
    cases h
    split
    · rename_i f₂ e hmake₂
      rw [verdict, verdict, (mayPass_of_makeDirectories hbehind.leads hbehind.folders hmake).2,
        (mayPass_of_makeDirectories (hbehind.leads.grows hgrows₂) hbehind.folders hmake₂).2]
    · rename_i e hmake₂
      obtain ⟨d₁', hmake'⟩ :=
        makeDirectories_of_grows hbehind.leads htree₂ hbehind.folders hgrows₂ hmake₂
      rw [hmake'] at hmake
      cases hmake
  · rename_i d₁ hmake
    have hleads := hbehind.leads_folders hmake rfl
    have htree₁ := (made_makeDirectories cwd _ d hmake).tree htree
    have hput := put_putText rfl h
    have hgrows₁ : Grows d₁ d₂ := hput.grows.trans hgrows
    rw [makeDirectories_of_leads (hleads.grows hgrows₁)]
    dsimp only
    rw [Path.extend_append] at h ⊢
    exact verdict_putText_again htree₁ hleads hbehind.name h hgrows htree₂ u

end Behind

/-! ## 5. Writes in a row -/

/-- The contents of files after one has been written. -/
def overwrite (c : Location → Option (List UInt8)) (w : Location × List UInt8) :
    Location → Option (List UInt8) := Function.update c w.1 (some w.2)

/-- Where something has been written, what was there before does not matter. -/
theorem foldl_overwrite (ws : List (Location × List UInt8)) : ∀ c : Location → Option (List UInt8),
    ws.foldl overwrite c = fun k => (ws.foldl overwrite (fun _ => none) k).or (c k) := by
  induction ws with
  | nil => exact fun c => rfl
  | cons w ws ih =>
    intro c
    funext k
    rw [List.foldl_cons, List.foldl_cons, ih (overwrite c w), ih (overwrite _ w)]
    dsimp only
    rw [Option.or_assoc]
    congr 1
    by_cases hk : k = w.1
    · subst hk
      simp [overwrite]
    · simp [overwrite, hk]

/-- **Writing the same files once more changes nothing.** -/
theorem foldl_overwrite_twice (ws : List (Location × List UInt8))
    (c : Location → Option (List UInt8)) :
    ws.foldl overwrite (ws.foldl overwrite c) = ws.foldl overwrite c := by
  rw [foldl_overwrite ws (ws.foldl overwrite c), foldl_overwrite ws c]
  funext k
  rw [← Option.or_assoc, Option.or_self]

/-- What writes behind a location leave: the disk grows and is a tree, nothing changes elsewhere,
and the contents are those that were written. -/
structure Leaves (l : Location) (ws : List (Location × List UInt8)) (d d' : Disk) : Prop where
  tree : d'.IsTree
  grows : Grows d d'
  outside : ∀ k, ¬l <+: k → d'.entry? k = d.entry? k
  content : d'.content? = ws.foldl overwrite d.content?

namespace Leaves

variable {d d' d'' : Disk} {l : Location} {ws ws' : List (Location × List UInt8)}

theorem refl (htree : d.IsTree) : Leaves l [] d d := ⟨htree, .refl d, fun _ _ => rfl, rfl⟩

theorem trans (h : Leaves l ws d d') (h' : Leaves l ws' d' d'') : Leaves l (ws ++ ws') d d'' where
  tree := h'.tree
  grows := h.grows.trans h'.grows
  outside k hk := (h'.outside k hk).trans (h.outside k hk)
  content := by rw [h'.content, h.content, List.foldl_append]

end Leaves

/-- What is written by an attempt with this result. -/
def writes {ε α : Type} (target : Location) (bytes : List UInt8) (r : Except ε α) :
    List (Location × List UInt8) := (r.toOption.map fun _ => (target, bytes)).toList

theorem Behind.leaves (hbehind : Behind d cwd q l folders name) (htree : d.IsTree)
    {r : Except FileFault Unit} (h : d.writeText cwd (q.extend (folders ++ [name])) t = (r, d')) :
    Leaves l (writes (Path.resolvedParts cwd (q.extend (folders ++ [name]))) (Utf8.encode t) r)
      d d' := by
  have hwritten := written_writeText rfl h
  refine ⟨hwritten.tree htree, hwritten.grows, fun k => hbehind.outside htree h, ?_⟩
  funext k
  cases r with
  | error f => exact hwritten.failed f rfl k
  | ok done =>
    have hone : writes (Path.resolvedParts cwd (q.extend (folders ++ [name]))) (Utf8.encode t)
        (Except.ok done : Except FileFault Unit) =
        [(Path.resolvedParts cwd (q.extend (folders ++ [name])), Utf8.encode t)] := rfl
    rw [hone, List.foldl_cons, List.foldl_nil, overwrite, Function.update_apply]
    split
    · rename_i hk
      rw [hk]
      exact hwritten.done rfl
    · rename_i hk
      exact hwritten.content k hk

end InlineMarkup.Disk
