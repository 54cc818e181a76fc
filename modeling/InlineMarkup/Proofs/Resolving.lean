import Mathlib
import InlineMarkup.Path.Output

/-!
# Where paths and outputs lead

A part of a path is followed in one of three ways: it stays, it leads up, or it leads on to a name.
A name that always leads on is *proper* (`IsProper`); a path of proper names only is resolved as it
stands.  So what proper names add to a path they add to where it leads (`resolvedParts_append`), and
that is all there is to know about an output: it is the generated directory, then the folders of its
source, which have been resolved, then one part made from the stem and the suffix
(`eq_of_output`).

That part is a proper name when the suffix starts with a dot and something other than a slash
(`isProper_of_partsOf`).  Otherwise it need not be: a stem that is a dot and a suffix that is a dot
make `..`, and so does the suffix `./.`, since a name is read once more when it is joined.
-/

namespace InlineMarkup

/-! ## 1. Pieces between separators -/

theorem Text.joinWith_cons_cons (separator t t' : Text) (ts : List Text) :
    joinWith separator (t :: t' :: ts) = t ++ (separator ++ joinWith separator (t' :: ts)) := by
  rw [← List.append_assoc]
  rfl

theorem Text.joinWith_append (separator : Text) {us : List Text} (hus : us ≠ []) :
    ∀ {ts : List Text}, ts ≠ [] →
      joinWith separator (ts ++ us) = joinWith separator ts ++ (separator ++ joinWith separator us)
  | [], h => absurd rfl h
  | [t], _ => by
    obtain ⟨u, us, rfl⟩ := List.exists_cons_of_ne_nil hus
    simp [joinWith]
  | t :: t' :: ts, _ => by
    have ih := joinWith_append separator hus (List.cons_ne_nil t' ts)
    rw [List.cons_append, List.cons_append, joinWith_cons_cons, joinWith_cons_cons,
      ← List.cons_append, ih]
    simp

theorem Text.includes_iff {s : Text} : ∀ {t : Text}, includes t s = true ↔ s <:+: t
  | [] => by simp [includes]
  | c :: t => by
    rw [includes, Bool.or_eq_true, includes_iff, List.isPrefixOf_iff_prefix, List.infix_cons_iff]

theorem Text.splitAt_of_notMem {separator : Char} : ∀ {t : Text}, separator ∉ t →
    splitAt separator t = [t]
  | [], _ => rfl
  | c :: t, h => by
    have hc : c ≠ separator := fun hc => h (hc ▸ List.mem_cons_self)
    have ht : separator ∉ t := fun ht => h (List.mem_cons_of_mem c ht)
    simp [splitAt, hc, splitAt_of_notMem ht]

theorem Text.notMem_of_mem_splitAt {separator : Char} : ∀ {t piece : Text},
    piece ∈ splitAt separator t → separator ∉ piece
  | [], piece, h => by
    rw [List.mem_singleton.mp h]
    exact List.not_mem_nil
  | c :: t, piece, h => by
    rw [splitAt] at h
    split at h
    · rcases List.mem_cons.mp h with rfl | h
      · exact List.not_mem_nil
      · exact notMem_of_mem_splitAt h
    · rename_i hc
      split at h
      · rw [List.mem_singleton.mp h, List.mem_singleton]
        exact fun he => hc he.symm
      · rename_i first pieces hsplit
        rcases List.mem_cons.mp h with rfl | h
        · rw [List.mem_cons, not_or]
          exact ⟨fun he => hc he.symm, notMem_of_mem_splitAt (hsplit ▸ List.mem_cons_self)⟩
        · exact notMem_of_mem_splitAt (hsplit ▸ List.mem_cons_of_mem first h)

theorem Text.mem_of_mem_splitAt {separator d : Char} : ∀ {t piece : Text},
    piece ∈ Text.splitAt separator t → d ∈ piece → d ∈ t
  | [], piece, hpiece, hd => by
    rw [List.mem_singleton.mp hpiece] at hd
    exact hd
  | c :: t, piece, hpiece, hd => by
    rw [Text.splitAt] at hpiece
    split at hpiece
    · rcases List.mem_cons.mp hpiece with rfl | hpiece
      · exact absurd hd List.not_mem_nil
      · exact List.mem_cons_of_mem _ (Text.mem_of_mem_splitAt hpiece hd)
    · split at hpiece
      · rw [List.mem_singleton.mp hpiece, List.mem_singleton] at hd
        rw [hd]
        exact List.mem_cons_self
      · rename_i first pieces hsplit
        rcases List.mem_cons.mp hpiece with rfl | hpiece
        · rcases List.mem_cons.mp hd with rfl | hd
          · exact List.mem_cons_self
          · exact List.mem_cons_of_mem _
              (Text.mem_of_mem_splitAt (hsplit ▸ List.mem_cons_self) hd)
        · exact List.mem_cons_of_mem _
            (Text.mem_of_mem_splitAt (hsplit ▸ List.mem_cons_of_mem _ hpiece) hd)

/-- What holds no separator goes to the first piece of what follows it. -/
theorem Text.splitAt_append {separator : Char} : ∀ {a : Text}, separator ∉ a → ∀ t : Text,
    ∃ piece pieces, splitAt separator t = piece :: pieces ∧
      splitAt separator (a ++ t) = (a ++ piece) :: pieces
  | [], _, [] => ⟨[], [], rfl, rfl⟩
  | [], _, c :: t => by
    obtain ⟨piece, pieces, ht, -⟩ := splitAt_append (a := []) List.not_mem_nil t
    by_cases hc : c = separator
    · exact ⟨[], splitAt separator t, by rw [splitAt, if_pos hc], by
        rw [List.nil_append, splitAt, if_pos hc]; rfl⟩
    · refine ⟨c :: piece, pieces, ?_, ?_⟩
      · rw [splitAt, if_neg hc, ht]
      · rw [List.nil_append, splitAt, if_neg hc, ht]
        rfl
  | c :: a, h, t => by
    have hc : c ≠ separator := fun hc => h (hc ▸ List.mem_cons_self)
    obtain ⟨piece, pieces, ht, ha⟩ :=
      splitAt_append (fun ha => h (List.mem_cons_of_mem c ha)) t
    refine ⟨piece, pieces, ht, ?_⟩
    rw [List.cons_append, splitAt, if_neg hc, ha]
    rfl

namespace Path

/-! ## 2. Proper names -/

/-- A name that leads from a directory to one of its entries: it is not empty and holds no slash,
and it is neither a dot nor two. -/
structure IsProper (t : Text) : Prop where
  ne_nil : t ≠ []
  ne_here : t ≠ here
  ne_above : t ≠ above
  noSlash : '/' ∉ t

instance (t : Text) : Decidable (IsProper t) :=
  decidable_of_iff (t ≠ [] ∧ t ≠ here ∧ t ≠ above ∧ '/' ∉ t)
    ⟨fun ⟨h₁, h₂, h₃, h₄⟩ => ⟨h₁, h₂, h₃, h₄⟩,
      fun h => ⟨h.ne_nil, h.ne_here, h.ne_above, h.noSlash⟩⟩

/-- A path that is followed name by name. -/
def IsResolved (p : Path) : Prop := ∀ name ∈ p.parts, IsProper name

instance (p : Path) : Decidable p.IsResolved :=
  inferInstanceAs (Decidable (∀ name ∈ p.parts, IsProper name))

/-- A text without a slash that is not empty and not a dot is a part of its own. -/
theorem partsOf_of_noSlash {t : Text} (hne : t ≠ []) (hhere : t ≠ here) (hslash : '/' ∉ t) :
    partsOf t = [t] := by
  rw [partsOf, Text.splitAt_of_notMem hslash]
  simp [hne, hhere]

theorem IsProper.partsOf {t : Text} (h : IsProper t) : partsOf t = [t] :=
  partsOf_of_noSlash h.ne_nil h.ne_here h.noSlash

/-- A part is a proper name or leads up. -/
theorem isProper_of_mem_partsOf {t part : Text} (h : part ∈ partsOf t) :
    part = above ∨ IsProper part := by
  obtain ⟨hmem, hkept⟩ := List.mem_filter.mp h
  have hkept : part ≠ [] ∧ part ≠ here := by simpa using hkept
  by_cases habove : part = above
  · exact Or.inl habove
  · exact Or.inr ⟨hkept.1, hkept.2, habove, Text.notMem_of_mem_splitAt hmem⟩

theorem flatMap_partsOf : ∀ {parts : List Text}, (∀ part ∈ parts, partsOf part = [part]) →
    parts.flatMap partsOf = parts
  | [], _ => rfl
  | part :: parts, h => by
    rw [List.flatMap_cons, h part List.mem_cons_self,
      flatMap_partsOf fun p hp => h p (List.mem_cons_of_mem part hp)]
    rfl

/-! ## 3. Resolving -/

/-- The path with further parts. -/
def extend (p : Path) (parts : List Text) : Path := { p with parts := p.parts ++ parts }

@[simp] theorem extend_nil (p : Path) : p.extend [] = p := by
  rw [extend, List.append_nil]

theorem extend_append (p : Path) (a b : List Text) : p.extend (a ++ b) = (p.extend a).extend b := by
  simp [extend]

theorem parent_extend (p : Path) (parts : List Text) (name : Text) :
    (p.extend (parts ++ [name])).parent = p.extend parts := by
  rw [parent, extend, extend, ← List.append_assoc, List.dropLast_concat]

theorem name_extend (p : Path) (parts : List Text) (name : Text) :
    (p.extend (parts ++ [name])).name = name := by
  rw [Path.name, extend, ← List.append_assoc]
  simp

theorem follow_of_isProper {t : Text} (h : IsProper t) (reversed : List Text) :
    follow reversed t = t :: reversed := by
  have hempty : t.isEmpty = false := by simpa using h.ne_nil
  simp [follow, hempty, h.ne_here, h.ne_above]

theorem foldl_follow : ∀ {names : List Text}, (∀ name ∈ names, IsProper name) →
    ∀ reversed, names.foldl follow reversed = names.reverse ++ reversed
  | [], _, _ => rfl
  | name :: names, h, reversed => by
    rw [List.foldl_cons, follow_of_isProper (h name List.mem_cons_self),
      foldl_follow fun n hn => h n (List.mem_cons_of_mem name hn)]
    simp

theorem flatMap_splitAt : ∀ {names : List Text}, (∀ name ∈ names, '/' ∉ name) →
    names.flatMap (Text.splitAt '/') = names
  | [], _ => rfl
  | name :: names, h => by
    rw [List.flatMap_cons, Text.splitAt_of_notMem (h name List.mem_cons_self),
      flatMap_splitAt fun n hn => h n (List.mem_cons_of_mem name hn)]
    rfl

/-- **Proper names lead on from wherever a path leads.** -/
theorem resolvedParts_append (cwd p : Path) {names : List Text}
    (h : ∀ name ∈ names, IsProper name) :
    resolvedParts cwd (p.extend names) = resolvedParts cwd p ++ names := by
  have hsplit := flatMap_splitAt fun name hname => (h name hname).noSlash
  simp only [resolvedParts, extend, List.flatMap_append, hsplit, List.foldl_append, foldl_follow h,
    List.reverse_append, List.reverse_reverse]
  rfl

/-- Following leads to proper names only. -/
theorem isProper_foldl_follow : ∀ {steps reversed : List Text},
    (∀ step ∈ steps, '/' ∉ step) → (∀ name ∈ reversed, IsProper name) →
    ∀ name ∈ steps.foldl follow reversed, IsProper name
  | [], _, _, h => h
  | step :: steps, reversed, hsteps, h => by
    rw [List.foldl_cons]
    refine isProper_foldl_follow (fun s hs => hsteps s (List.mem_cons_of_mem step hs)) ?_
    intro name hname
    unfold follow at hname
    split at hname
    · exact h name hname
    · rename_i hstays
      split at hname
      · exact h name (List.mem_of_mem_tail hname)
      · rename_i hup
        rcases List.mem_cons.mp hname with rfl | hname
        · have hstays : name ≠ [] ∧ name ≠ here := by simpa using hstays
          exact ⟨hstays.1, hstays.2, by simpa using hup, hsteps name List.mem_cons_self⟩
        · exact h name hname

theorem isProper_resolvedParts {cwd : Path} (hcwd : cwd.IsResolved) (p : Path) :
    ∀ name ∈ resolvedParts cwd p, IsProper name := by
  intro name hname
  rw [resolvedParts, List.mem_reverse] at hname
  refine isProper_foldl_follow ?_ ?_ name hname
  · intro step hstep
    obtain ⟨part, -, hpart⟩ := List.mem_flatMap.mp hstep
    exact Text.notMem_of_mem_splitAt hpart
  · intro n hn
    split at hn
    · exact absurd hn List.not_mem_nil
    · exact hcwd n (List.mem_reverse.mp hn)

/-- A path from the root whose names are proper is resolved as it stands. -/
theorem resolve_of_isResolved (cwd : Path) {l : List Text} (h : ∀ name ∈ l, IsProper name) :
    resolve cwd ⟨.root, l⟩ = ⟨.root, l⟩ := by
  have hroot : resolvedParts cwd ⟨.root, []⟩ = [] := rfl
  have happend := resolvedParts_append cwd ⟨.root, []⟩ h
  rw [hroot, List.nil_append, extend, List.nil_append] at happend
  rw [resolve]
  exact congrArg (Path.mk .root) happend

theorem resolvedParts_of_isResolved (cwd : Path) {p : Path} (hanchor : p.anchor = .root)
    (h : p.IsResolved) : resolvedParts cwd p = p.parts := by
  obtain ⟨anchor, parts⟩ := p
  obtain rfl : anchor = .root := hanchor
  exact congrArg Path.parts (resolve_of_isResolved cwd h)

theorem resolvedParts_absolute {cwd : Path} (hcwd : cwd.IsResolved) (p : Path) :
    resolvedParts cwd (absolute cwd p) = resolvedParts cwd p := by
  have hroot : resolvedParts cwd ⟨if p.isAbsolute then p.anchor else .root, []⟩ = [] := by
    unfold resolvedParts isAbsolute
    cases p.anchor <;> rfl
  have happend := resolvedParts_append cwd ⟨if p.isAbsolute then p.anchor else .root, []⟩
    (isProper_resolvedParts hcwd p)
  rw [hroot, List.nil_append, extend, List.nil_append] at happend
  exact happend

theorem isUnder_resolve_iff {cwd p q : Path} (hanchor : p.anchor = .root) :
    p.isUnder (resolve cwd q) = true ↔ resolvedParts cwd q <+: p.parts := by
  rw [isUnder, hanchor, resolve, Bool.and_eq_true, List.isPrefixOf_iff_prefix]
  exact ⟨fun h => h.2, fun h => ⟨rfl, h⟩⟩

theorem holdsNul_eq_false_iff {p : Path} : p.holdsNul = false ↔ ∀ part ∈ p.parts, nul ∉ part := by
  simp [holdsNul]

/-! ## 4. Stems -/

theorem stem_sublist (p : Path) : p.stem.Sublist p.name := by
  unfold stem
  split
  · exact List.take_sublist _ _
  · exact List.Sublist.refl _

theorem stem_ne_nil {p : Path} (h : p.name ≠ []) : p.stem ≠ [] := by
  unfold stem
  split
  · rename_i i hi
    simp only [suffixStart?] at hi
    split at hi
    · rename_i hsome
      cases hi
      simp only [ne_eq, List.take_eq_nil_iff, not_or]
      exact ⟨by omega, h⟩
    · cases hi
  · exact h

/-! ## 5. Where a source stands in the project -/

/-- The path of a source within the project: as seen from the root or, for a source that is not
seen from there, its mere name. -/
def within (cwd source root : Path) : Path :=
  (seenFrom? cwd source root).getD (ofText source.name)

theorem parts_of_seenFrom? {cwd p root relative : Path} (h : seenFrom? cwd p root = some relative) :
    relative.anchor = .relative ∧
      resolvedParts cwd p = resolvedParts cwd root ++ relative.parts := by
  unfold seenFrom? resolve? at h
  split at h
  · rename_i hp hroot
    split at hp
    · cases hp
    · split at hroot
      · cases hroot
      · cases hp
        cases hroot
        unfold relativeTo? at h
        split at h
        · rename_i hunder
          cases h
          obtain ⟨rest, hrest⟩ := (isUnder_resolve_iff rfl).mp hunder
          refine ⟨rfl, ?_⟩
          simp only [resolve] at hrest ⊢
          rw [← hrest, List.drop_left]
        · cases h
  · cases h

/-- What is known of the path of a source within the project: it is relative, its folders are proper
names, and there is no slash in its name. -/
structure IsWithin (p : Path) : Prop where
  relative : p.anchor = .relative
  folders : ∀ part ∈ p.parts.dropLast, IsProper part
  noSlash : '/' ∉ p.name

theorem parts_of_name_ne_nil {p : Path} (h : p.name ≠ []) :
    p.parts = p.parts.dropLast ++ [p.name] := by
  rcases List.eq_nil_or_concat p.parts with hnil | ⟨folders, last, hparts⟩
  · rw [name, hnil] at h
    exact absurd rfl h
  · rw [name, hparts]
    simp

theorem IsResolved.isProper_name {p : Path} (h : p.IsResolved) (hne : p.name ≠ []) :
    IsProper p.name :=
  h p.name (by rw [parts_of_name_ne_nil hne]; simp)

theorem IsResolved.noSlash {p : Path} (h : p.IsResolved) : '/' ∉ p.name := by
  by_cases hne : p.name = []
  · rw [hne]
    exact List.not_mem_nil
  · exact (h.isProper_name hne).noSlash

theorem isWithin_of_isResolved {p : Path} (hanchor : p.anchor = .relative) (h : p.IsResolved) :
    IsWithin p where
  relative := hanchor
  folders part hpart := h part (List.mem_of_mem_dropLast hpart)
  noSlash := h.noSlash

theorem isWithin_within {cwd source : Path} (hcwd : cwd.IsResolved) (hsource : '/' ∉ source.name)
    (root : Path) : IsWithin (within cwd source root) := by
  unfold within
  cases hseen : seenFrom? cwd source root with
  | some relative =>
    obtain ⟨hanchor, hparts⟩ := parts_of_seenFrom? hseen
    refine isWithin_of_isResolved hanchor fun part hpart => ?_
    refine isProper_resolvedParts hcwd source part ?_
    rw [hparts]
    exact List.mem_append_right _ hpart
  | none =>
    have hanchor : anchorOf source.name = .relative := by
      have hnone : source.name.takeWhile (· == '/') = [] := by
        cases hname : source.name with
        | nil => rfl
        | cons c rest =>
          have hc : c ≠ '/' := fun hc => hsource (by rw [hname, hc]; exact List.mem_cons_self)
          simp [hc]
      simp [anchorOf, hnone]
    by_cases hempty : source.name = [] ∨ source.name = here
    · have hparts : partsOf source.name = [] := by
        rcases hempty with h | h <;> rw [h] <;> rfl
      rw [Option.getD_none, ofText, hanchor, hparts]
      exact ⟨rfl, fun part h => absurd h List.not_mem_nil, List.not_mem_nil⟩
    · rw [not_or] at hempty
      have hparts := partsOf_of_noSlash hempty.1 hempty.2 hsource
      rw [Option.getD_none, ofText, hanchor, hparts]
      exact ⟨rfl, fun part h => absurd h List.not_mem_nil, hsource⟩

/-! ## 6. Outputs -/

theorem output_eq (cwd source root : Path) (generated suffix : Text) :
    output cwd source root generated suffix =
      (outputRelative (within cwd source root) suffix).map (root.child generated).join := by
  unfold output within
  dsimp only
  cases outputRelative ((seenFrom? cwd source root).getD (ofText source.name)) suffix <;> rfl

/-- **An output is the generated directory, then the folders of its source, then one part.** -/
theorem eq_of_output {cwd source root out : Path} {generated suffix : Text}
    (hcwd : cwd.IsResolved) (hsource : '/' ∉ source.name)
    (h : output cwd source root generated suffix = .ok out) :
    ∃ name, partsOf ((within cwd source root).stem ++ suffix) = [name] ∧
      (within cwd source root).name ≠ [] ∧
      out = (root.child generated).extend ((within cwd source root).parts.dropLast ++ [name]) := by
  have hwithin := isWithin_within hcwd hsource root
  rw [output_eq] at h
  generalize within cwd source root = p at h hwithin ⊢
  unfold outputRelative withName at h
  by_cases hempty : p.name.isEmpty = true
  · rw [if_pos hempty] at h
    cases h
  · rw [if_neg hempty] at h
    by_cases hname : isName (p.stem ++ suffix) = true
    · rw [if_pos hname] at h
      simp only [isName, Bool.and_eq_true, beq_iff_eq] at hname
      obtain ⟨name, hparts⟩ := List.length_eq_one_iff.mp hname.1.2
      refine ⟨name, hparts, by simpa using hempty, ?_⟩
      have hfolders : p.parts.dropLast.flatMap partsOf = p.parts.dropLast :=
        flatMap_partsOf fun part hpart => (hwithin.folders part hpart).partsOf
      rw [← Except.ok.inj h, join]
      simp [isAbsolute, hwithin.relative, reread, hfolders, hparts, extend]
    · rw [if_neg hname] at h
      cases h

theorem exists_of_startsWith_dot {t : Text} (h : Text.startsWith t "." = true) :
    ∃ rest, t = '.' :: rest := by
  obtain ⟨rest, hrest⟩ := List.isPrefixOf_iff_prefix.mp h
  exact ⟨rest, hrest.symm⟩

/-- The parts of a stem with a suffix: the stem and the start of the suffix, up to a slash, and then
what stands behind that. -/
theorem partsOf_append {stem suffix : Text} (hstem : stem ≠ []) (hslash : '/' ∉ stem)
    (hdot : Text.startsWith suffix "." = true) :
    ∃ piece pieces, Text.splitAt '/' suffix = ('.' :: piece) :: pieces ∧
      partsOf (stem ++ suffix) = (stem ++ '.' :: piece) ::
        pieces.filter fun part => !(part.isEmpty || part == here) := by
  obtain ⟨rest, rfl⟩ := exists_of_startsWith_dot hdot
  have hone : '/' ∉ ['.'] := by decide
  obtain ⟨piece, pieces, -, hrest⟩ := Text.splitAt_append hone rest
  obtain ⟨piece', pieces', hsuffix, hsplit⟩ := Text.splitAt_append hslash ('.' :: rest)
  have hpiece : piece' = '.' :: piece ∧ pieces' = pieces := List.cons.inj (hsuffix.symm.trans hrest)
  obtain ⟨rfl, rfl⟩ := hpiece
  refine ⟨piece, pieces', hrest, ?_⟩
  -- the stem and the dot are at least two characters
  have hhere : stem ++ '.' :: piece ≠ here := by
    intro heq
    have hlength := congrArg List.length heq
    have hpos := List.length_pos_iff.mpr hstem
    simp only [here, List.length_append, List.length_cons, List.length_nil] at hlength
    omega
  rw [partsOf, hsplit, List.filter_cons_of_pos]
  simp [hhere]

/-- **The last part of an output is its stem and the start of the suffix**, up to a slash. -/
theorem eq_append_of_partsOf {stem suffix name : Text} (hstem : stem ≠ []) (hslash : '/' ∉ stem)
    (hdot : Text.startsWith suffix "." = true) (h : partsOf (stem ++ suffix) = [name]) :
    ∃ piece pieces, Text.splitAt '/' suffix = ('.' :: piece) :: pieces ∧
      name = stem ++ '.' :: piece := by
  obtain ⟨piece, pieces, hsplit, hparts⟩ := partsOf_append hstem hslash hdot
  exact ⟨piece, pieces, hsplit, (List.cons.inj (h.symm.trans hparts)).1⟩

/-- **The last part of an output is a proper name**, when the suffix starts with a dot and what
follows the dot is there and is not a slash. -/
theorem isProper_of_partsOf {stem suffix name : Text} (hstem : stem ≠ []) (hslash : '/' ∉ stem)
    (hdot : Text.startsWith suffix "." = true) (hmore : suffix ≠ ".")
    (hnone : Text.startsWith suffix "./" = false)
    (h : partsOf (stem ++ suffix) = [name]) : IsProper name := by
  refine (isProper_of_mem_partsOf (h ▸ List.mem_singleton_self name)).resolve_left fun habove => ?_
  obtain ⟨piece, pieces, hsplit, rfl⟩ := eq_append_of_partsOf hstem hslash hdot h
  -- two dots are too few for the stem, the dot and what follows it
  obtain rfl : piece = [] := by
    have hlength := congrArg List.length habove
    have hpos := List.length_pos_iff.mpr hstem
    simp only [above, List.length_append, List.length_cons, List.length_nil] at hlength
    exact List.eq_nil_of_length_eq_zero (by omega)
  obtain ⟨rest, rfl⟩ := exists_of_startsWith_dot hdot
  cases rest with
  | nil => exact hmore rfl
  | cons c rest =>
    have hc : '/' ∉ ['.', c] := by
      simp only [List.mem_cons, List.not_mem_nil, or_false, not_or]
      refine ⟨by decide, ?_⟩
      rintro rfl
      exact absurd hnone (by simp [Text.startsWith])
    obtain ⟨piece, pieces', -, hsplit'⟩ := Text.splitAt_append hc rest
    have hfirst := (List.cons.inj (hsplit'.symm.trans hsplit)).1
    cases hfirst

end Path

end InlineMarkup
