import InlineMarkup.Disk.File
import InlineMarkup.Proofs.Resolving

/-!
# Disks as trees

What stands at a location is all that is ever asked of a disk, so a change of a disk is known by
what it does to `entry?`.  A disk is a *tree* (`IsTree`) when each location is listed once, its
names can be on a disk, and it lies in a directory; making an entry in a directory keeps it one
(`IsTree.insert`), unless a file takes the place of a directory.

A disk only *grows* (`Grows`) when directories stay directories and files stay files, whatever their
contents.  Where a path leads on a disk, it leads on a disk that has grown from it
(`follow_grows`); and since there are no links, it leads where it resolves to
(`eq_resolvedParts_of_follow`).
-/

namespace InlineMarkup.Disk

/-! ## 1. What stands where after a change -/

theorem entry?_of_ne_nil (d : Disk) {l : Location} (h : l ≠ []) :
    d.entry? l = (d.entries.find? fun e => e.1 == l).map Prod.snd := by
  have hempty : l.isEmpty = false := by simpa using h
  unfold entry?
  rw [hempty]
  rfl

theorem entry?_erase (d : Disk) {l : Location} (hl : l ≠ []) (k : Location) :
    entry? (d.erase l) k = if k = l then none else d.entry? k := by
  by_cases hk : k = []
  · subst hk
    rw [if_neg (Ne.symm hl)]
    rfl
  rw [entry?_of_ne_nil _ hk, entry?_of_ne_nil _ hk, erase, List.find?_filter]
  by_cases hkl : k = l
  · subst hkl
    rw [if_pos rfl, Option.map_eq_none_iff, List.find?_eq_none]
    simp
  · rw [if_neg hkl]
    have hsame : (fun e : Location × Entry => decide ((e.1 != l) = true ∧ (e.1 == k) = true)) =
        fun e => e.1 == k := by
      funext e
      by_cases he : e.1 = k
      · simp [he, hkl]
      · simp [he]
    rw [hsame]

theorem entry?_insert (d : Disk) {l : Location} (hl : l ≠ []) (e : Entry) (k : Location) :
    entry? (d.insert l e) k = if k = l then some e else d.entry? k := by
  by_cases hk : k = []
  · subst hk
    rw [if_neg (Ne.symm hl)]
    rfl
  have herase := entry?_erase d hl k
  rw [entry?_of_ne_nil _ hk] at herase
  rw [entry?_of_ne_nil _ hk, insert, List.find?_append, Option.map_or, herase]
  by_cases hkl : k = l
  · subst hkl
    simp
  · have hlk : l ≠ k := fun h => hkl h.symm
    rw [if_neg hkl, if_neg hkl]
    simp [hlk]

/-- An entry is found only if it is listed. -/
theorem mem_entries_of_found {d : Disk} {l : Location} {e : Entry} (hl : l ≠ [])
    (h : d.entry? l = some e) : (l, e) ∈ d.entries := by
  rw [entry?_of_ne_nil _ hl, Option.map_eq_some_iff] at h
  obtain ⟨⟨k, e'⟩, hfind, rfl⟩ := h
  have hk : k = l := by simpa using List.find?_some hfind
  rw [← hk]
  exact List.mem_of_find?_eq_some hfind

/-- The bytes of the file at a location, if a file is there. -/
def content? (d : Disk) (l : Location) : Option (List UInt8) :=
  match d.entry? l with
  | some (.file bytes) => some bytes
  | _ => none

theorem content?_eq_some_iff {d : Disk} {l : Location} {bytes : List UInt8} :
    d.content? l = some bytes ↔ d.entry? l = some (.file bytes) := by
  unfold content?
  split
  · rename_i h
    rw [h]
    simp
  · rename_i hfile
    constructor
    · intro h
      cases h
    · intro h
      exact absurd h (hfile bytes)

theorem content?_congr {d d' : Disk} {l : Location} (h : d'.entry? l = d.entry? l) :
    d'.content? l = d.content? l := by
  rw [content?, content?, h]

/-! ## 2. Trees -/

/-- A name that can be on a disk. -/
structure IsStorable (name : Text) : Prop where
  proper : Path.IsProper name
  noNul : Path.nul ∉ name
  short : isTooLong name = false

instance (name : Text) : Decidable (IsStorable name) :=
  decidable_of_iff (Path.IsProper name ∧ Path.nul ∉ name ∧ isTooLong name = false)
    ⟨fun ⟨h₁, h₂, h₃⟩ => ⟨h₁, h₂, h₃⟩, fun h => ⟨h.proper, h.noNul, h.short⟩⟩

/-- The disk is a tree of directories with files in them: each location is listed once, can be on a
disk and lies in a directory. -/
structure IsTree (d : Disk) : Prop where
  nodup : (d.entries.map Prod.fst).Nodup
  ne_nil : ∀ e ∈ d.entries, e.1 ≠ []
  storable : ∀ e ∈ d.entries, ∀ name ∈ e.1, IsStorable name
  parent : ∀ e ∈ d.entries, d.entry? e.1.dropLast = some .directory

instance (d : Disk) : Decidable d.IsTree :=
  decidable_of_iff
    ((d.entries.map Prod.fst).Nodup ∧ (∀ e ∈ d.entries, e.1 ≠ []) ∧
      (∀ e ∈ d.entries, ∀ name ∈ e.1, IsStorable name) ∧
      ∀ e ∈ d.entries, d.entry? e.1.dropLast = some .directory)
    ⟨fun ⟨h₁, h₂, h₃, h₄⟩ => ⟨h₁, h₂, h₃, h₄⟩, fun h => ⟨h.nodup, h.ne_nil, h.storable, h.parent⟩⟩

namespace IsTree

variable {d : Disk}

/-- In a tree, what is listed is what is found. -/
theorem mem_entries_iff (h : d.IsTree) {l : Location} {e : Entry} :
    (l, e) ∈ d.entries ↔ l ≠ [] ∧ d.entry? l = some e := by
  refine ⟨fun hmem => ⟨h.ne_nil _ hmem, ?_⟩, fun ⟨hl, he⟩ => mem_entries_of_found hl he⟩
  rw [entry?_of_ne_nil _ (h.ne_nil _ hmem)]
  cases hfind : d.entries.find? fun x => x.1 == l with
  | none =>
    have := List.find?_eq_none.mp hfind (l, e) hmem
    simp at this
  | some x =>
    have hx : x.1 = l := by simpa using List.find?_some hfind
    have hxmem := List.mem_of_find?_eq_some hfind
    rw [← List.inj_on_of_nodup_map h.nodup hmem hxmem hx.symm]
    rfl

theorem storable_of_found (h : d.IsTree) {l : Location} {e : Entry}
    (he : d.entry? l = some e) : ∀ name ∈ l, IsStorable name := by
  by_cases hl : l = []
  · rw [hl]
    exact fun name hname => absurd hname List.not_mem_nil
  · exact h.storable _ (mem_entries_of_found hl he)

theorem holdsNul_of_found (h : d.IsTree) {p : Path} {e : Entry} (he : d.entry? p.parts = some e) :
    p.holdsNul = false :=
  Path.holdsNul_eq_false_iff.mpr fun name hname => (h.storable_of_found he name hname).noNul

theorem isResolved_of_found (h : d.IsTree) {p : Path} {e : Entry} (he : d.entry? p.parts = some e) :
    p.IsResolved :=
  fun name hname => (h.storable_of_found he name hname).proper

/-- Above what is there, there are directories. -/
theorem parent_of_found (h : d.IsTree) {l : Location} {name : Text} {e : Entry}
    (he : d.entry? (l ++ [name]) = some e) : d.entry? l = some .directory := by
  have := h.parent _ (mem_entries_of_found (by simp) he)
  rwa [List.dropLast_concat] at this

theorem directory_above (h : d.IsTree) {l : Location} : ∀ {names : List Text} {e : Entry},
    names ≠ [] → d.entry? (l ++ names) = some e → d.entry? l = some .directory := by
  intro names
  induction names using List.reverseRecOn with
  | nil => exact fun hne => absurd rfl hne
  | append_singleton names name ih =>
    intro e _ he
    rw [← List.append_assoc] at he
    have hparent := h.parent_of_found he
    by_cases hnames : names = []
    · rwa [hnames, List.append_nil] at hparent
    · exact ih hnames hparent

/-- **Entries are made in directories**: that keeps a tree one, unless what is made is a file in the
place of a directory. -/
theorem insert (h : d.IsTree) {l : Location} {name : Text} {e : Entry}
    (hdir : d.entry? l = some .directory) (hname : IsStorable name)
    (hplace : d.entry? (l ++ [name]) = some .directory → e = .directory) :
    (d.insert (l ++ [name]) e).IsTree := by
  have hne : l ++ [name] ≠ [] := by simp
  have hentry := entry?_insert d hne e
  have hkept : ∀ {k : Location}, d.entry? k = some .directory →
      entry? (d.insert (l ++ [name]) e) k = some .directory := by
    intro k hk
    rw [hentry]
    split
    · rename_i hkl
      rw [hplace (hkl ▸ hk)]
    · exact hk
  have hold : ∀ x ∈ (d.erase (l ++ [name])).entries, x ∈ d.entries ∧ x.1 ≠ l ++ [name] := by
    intro x hx
    have := List.mem_filter.mp hx
    exact ⟨this.1, by simpa using this.2⟩
  refine ⟨?_, ?_, ?_, ?_⟩
  · rw [Disk.insert, List.map_append, List.nodup_append]
    refine ⟨h.nodup.sublist (List.Sublist.map Prod.fst List.filter_sublist), by simp, ?_⟩
    intro k hk k' hk'
    obtain ⟨x, hx, rfl⟩ := List.mem_map.mp hk
    simp only [List.map_cons, List.map_nil, List.mem_singleton] at hk'
    rw [hk']
    exact (hold x hx).2
  · intro x hx
    rcases List.mem_append.mp hx with hx | hx
    · exact h.ne_nil x (hold x hx).1
    · rw [List.mem_singleton.mp hx]
      exact hne
  · intro x hx
    rcases List.mem_append.mp hx with hx | hx
    · exact h.storable x (hold x hx).1
    · rw [List.mem_singleton.mp hx]
      intro n hn
      rcases List.mem_append.mp hn with hn | hn
      · exact h.storable_of_found hdir n hn
      · rw [List.mem_singleton.mp hn]
        exact hname
  · intro x hx
    rcases List.mem_append.mp hx with hx | hx
    · exact hkept (h.parent x (hold x hx).1)
    · rw [List.mem_singleton.mp hx, List.dropLast_concat]
      exact hkept hdir

/-- What is not a directory can be taken away. -/
theorem erase (h : d.IsTree) {l : Location} (hl : l ≠ []) (hfile : d.entry? l ≠ some .directory) :
    (d.erase l).IsTree := by
  have hold : ∀ x ∈ (d.erase l).entries, x ∈ d.entries := fun x hx => (List.mem_filter.mp hx).1
  refine ⟨h.nodup.sublist (List.Sublist.map Prod.fst List.filter_sublist),
    fun x hx => h.ne_nil x (hold x hx), fun x hx => h.storable x (hold x hx), fun x hx => ?_⟩
  have hparent := h.parent x (hold x hx)
  rw [entry?_erase d hl, if_neg]
  · exact hparent
  · intro hk
    exact hfile (hk ▸ hparent)

end IsTree

/-! ## 3. Growing -/

/-- Directories stay directories and files stay files. -/
structure Grows (d d' : Disk) : Prop where
  directory : ∀ {l}, d.entry? l = some .directory → d'.entry? l = some .directory
  file : ∀ {l bytes}, d.entry? l = some (.file bytes) → ∃ bytes', d'.entry? l = some (.file bytes')

namespace Grows

variable {d d' d'' : Disk}

theorem refl (d : Disk) : Grows d d := ⟨fun h => h, fun h => ⟨_, h⟩⟩

theorem trans (h : Grows d d') (h' : Grows d' d'') : Grows d d'' where
  directory hl := h'.directory (h.directory hl)
  file hl := by
    obtain ⟨_, hl'⟩ := h.file hl
    exact h'.file hl'

theorem isSome (h : Grows d d') {l : Location} (hl : (d.entry? l).isSome = true) :
    (d'.entry? l).isSome = true := by
  obtain ⟨e, he⟩ := Option.isSome_iff_exists.mp hl
  cases e with
  | directory => rw [h.directory he]; rfl
  | file bytes =>
    obtain ⟨bytes', h'⟩ := h.file he
    rw [h']
    rfl

theorem insert_directory {l : Location} (hl : l ≠ []) (hnone : d.entry? l = none) :
    Grows d (d.insert l .directory) where
  directory {k} hk := by
    rw [entry?_insert d hl]
    split
    · rfl
    · exact hk
  file {k _} hk := by
    rw [entry?_insert d hl]
    split
    · rename_i hkl
      rw [hkl, hnone] at hk
      cases hk
    · exact ⟨_, hk⟩

theorem insert_file {l : Location} {bytes : List UInt8} (hl : l ≠ [])
    (hfile : d.entry? l ≠ some .directory) : Grows d (d.insert l (.file bytes)) where
  directory {k} hk := by
    rw [entry?_insert d hl]
    split
    · rename_i hkl
      exact absurd (hkl ▸ hk) hfile
    · exact hk
  file {k _} hk := by
    rw [entry?_insert d hl]
    split
    · exact ⟨_, rfl⟩
    · exact ⟨_, hk⟩

end Grows

/-! ## 4. Following paths -/

theorem follow_cons_of_isProper {d : Disk} {l : Location} {name : Text} (rest : List Text)
    (hdir : d.entry? l = some .directory) (hproper : Path.IsProper name)
    (hshort : isTooLong name = false) (hsome : (d.entry? (l ++ [name])).isSome = true) :
    follow d l (name :: rest) = follow d (l ++ [name]) rest := by
  rw [follow, hdir]
  simp [hproper.ne_here, hproper.ne_above, hshort, hsome]

theorem follow_append (d : Disk) : ∀ (a b : List Text) (l : Location),
    follow d l (a ++ b) =
      match follow d l a with
      | .ok m => follow d m b
      | .error reason => .error reason
  | [], _, _ => rfl
  | name :: a, b, l => by
    have ih := follow_append d a b
    rw [List.cons_append, follow, follow]
    cases d.entry? l with
    | none => rfl
    | some e =>
      cases e with
      | file bytes => rfl
      | directory =>
        dsimp only
        split
        · exact ih _
        · split
          · exact ih _
          · split
            · rfl
            · split
              · exact ih _
              · rfl

/-- **Where names lead on a disk, they lead on a disk that has grown from it.** -/
theorem follow_grows {d d' : Disk} (hgrows : Grows d d') : ∀ {names : List Text} {l m : Location},
    follow d l names = .ok m → follow d' l names = .ok m
  | [], _, _, h => h
  | name :: names, l, m, h => by
    rw [follow] at h
    split at h
    · cases h
    · cases h
    · rename_i hdir
      rw [follow, hgrows.directory hdir]
      dsimp only
      split
      · rename_i hhere
        rw [if_pos hhere] at h
        exact follow_grows hgrows h
      · rename_i hhere
        rw [if_neg hhere] at h
        split
        · rename_i habove
          rw [if_pos habove] at h
          exact follow_grows hgrows h
        · rename_i habove
          rw [if_neg habove] at h
          split
          · rename_i hlong
            rw [if_pos hlong] at h
            cases h
          · rename_i hlong
            rw [if_neg hlong] at h
            split at h
            · rename_i hsome
              rw [if_pos (hgrows.isSome hsome)]
              exact follow_grows hgrows h
            · cases h

/-- What stops a path on its way is never a NUL. -/
theorem follow_ne_embeddedNul (d : Disk) : ∀ (names : List Text) (l : Location),
    follow d l names ≠ .error .embeddedNul
  | [], _ => nofun
  | name :: names, l => by
    rw [follow]
    split
    · exact nofun
    · exact nofun
    · split
      · exact follow_ne_embeddedNul d names _
      · split
        · exact follow_ne_embeddedNul d names _
        · split
          · exact nofun
          · split
            · exact follow_ne_embeddedNul d names _
            · exact nofun

/-- Without links, names lead where they resolve to. -/
theorem eq_foldl_of_follow {d : Disk} : ∀ {names : List Text} {l m : Location},
    (∀ name ∈ names, name ≠ []) → follow d l names = .ok m →
    m = (names.foldl Path.follow l.reverse).reverse
  | [], l, m, _, h => by
    cases h
    simp
  | name :: names, l, m, hne, h => by
    have hrest : ∀ n ∈ names, n ≠ [] := fun n hn => hne n (List.mem_cons_of_mem name hn)
    have hempty : name.isEmpty = false := by simpa using hne name List.mem_cons_self
    rw [follow] at h
    split at h
    · cases h
    · cases h
    · rw [List.foldl_cons, Path.follow]
      split at h
      · rename_i hhere
        rw [if_pos (by simp [hhere])]
        exact eq_foldl_of_follow hrest h
      · rename_i hhere
        rw [if_neg (by simp [hempty, hhere])]
        split at h
        · rename_i habove
          rw [if_pos (by simp [habove])]
          have hm := eq_foldl_of_follow hrest h
          rwa [← List.tail_reverse] at hm
        · rename_i habove
          rw [if_neg (by simp [habove])]
          split at h
          · cases h
          · split at h
            · have hm := eq_foldl_of_follow hrest h
              simpa using hm
            · cases h

/-- Dropping the empty names changes nothing about where names lead. -/
theorem foldl_follow_filter : ∀ (names reversed : List Text),
    (names.filter fun part => !part.isEmpty).foldl Path.follow reversed =
      names.foldl Path.follow reversed
  | [], _ => rfl
  | name :: names, reversed => by
    by_cases hname : name.isEmpty = true
    · have hstays : Path.follow reversed name = reversed := by simp [Path.follow, hname]
      rw [List.filter_cons_of_neg (by simp [hname]), List.foldl_cons, hstays]
      exact foldl_follow_filter names reversed
    · rw [List.filter_cons_of_pos (by simpa using hname), List.foldl_cons, List.foldl_cons]
      exact foldl_follow_filter names _

theorem foldl_follow_steps (cwd p : Path) :
    ((steps p).foldl Path.follow (startOf cwd p).reverse).reverse = Path.resolvedParts cwd p := by
  rw [steps, foldl_follow_filter, startOf, Path.resolvedParts]
  split <;> rfl

theorem ne_nil_of_mem_steps {p : Path} {name : Text} (h : name ∈ steps p) : name ≠ [] := by
  have := (List.mem_filter.mp h).2
  simpa using this

/-- **A path leads where it resolves to**, if it leads anywhere. -/
theorem eq_resolvedParts_of_follow {d : Disk} {cwd p : Path} {l : Location}
    (h : follow d (startOf cwd p) (steps p) = .ok l) : l = Path.resolvedParts cwd p := by
  rw [← foldl_follow_steps]
  exact eq_foldl_of_follow (fun _ hname => ne_nil_of_mem_steps hname) h

/-- In a tree, the location of an entry leads to it. -/
theorem IsTree.follow {d : Disk} (h : d.IsTree) : ∀ {names : List Text} {l : Location} {e : Entry},
    d.entry? (l ++ names) = some e → Disk.follow d l names = .ok (l ++ names)
  | [], l, _, _ => by simp [Disk.follow]
  | name :: names, l, e, he => by
    have hstorable := h.storable_of_found he name (by simp)
    have hdir : d.entry? l = some .directory := h.directory_above (by simp) he
    have he' : d.entry? ((l ++ [name]) ++ names) = some e := by simpa using he
    have hsome : (d.entry? (l ++ [name])).isSome = true := by
      by_cases hnames : names = []
      · rw [hnames, List.append_nil] at he'
        rw [he']
        rfl
      · rw [h.directory_above hnames he']
        rfl
    rw [follow_cons_of_isProper names hdir hstorable.proper hstorable.short hsome, h.follow he']
    simp

/-- Names lead to the same place on two disks that agree on all the way there. -/
theorem follow_congr {d d' : Disk} : ∀ {names : List Text} {l : Location},
    (∀ name ∈ names, Path.IsProper name) →
    (∀ n, d'.entry? (l ++ names.take n) = d.entry? (l ++ names.take n)) →
    Disk.follow d' l names = Disk.follow d l names
  | [], _, _, _ => rfl
  | name :: names, l, hproper, h => by
    have hname := hproper name List.mem_cons_self
    have hhere : d'.entry? l = d.entry? l := by simpa using h 0
    have hnext : d'.entry? (l ++ [name]) = d.entry? (l ++ [name]) := by simpa using h 1
    have hrest : Disk.follow d' (l ++ [name]) names = Disk.follow d (l ++ [name]) names := by
      refine follow_congr (fun n hn => hproper n (List.mem_cons_of_mem name hn)) fun n => ?_
      simpa using h (n + 1)
    rw [Disk.follow, Disk.follow, hhere]
    cases d.entry? l with
    | none => rfl
    | some e =>
      cases e with
      | file bytes => rfl
      | directory => simp [hname.ne_here, hname.ne_above, hnext, hrest]

/-! ## 5. Paths that are lengthened -/

theorem steps_append (p : Path) {names : List Text} (h : ∀ name ∈ names, Path.IsProper name) :
    steps (p.extend names) = steps p ++ names := by
  have hsplit := Path.flatMap_splitAt fun name hname => (h name hname).noSlash
  have hkept : names.filter (fun part => !part.isEmpty) = names := by
    refine List.filter_eq_self.mpr fun name hname => ?_
    have := (h name hname).ne_nil
    simpa using this
  rw [steps, Path.extend, List.flatMap_append, List.filter_append, hsplit, hkept]
  rfl

theorem steps_of_isResolved {l : Location} {a : Path.Anchor}
    (h : ∀ name ∈ l, Path.IsProper name) : steps ⟨a, l⟩ = l := by
  have := steps_append ⟨a, []⟩ h
  simpa [steps, Path.extend] using this

/-- In a tree, an entry is found from the root unless the path to it is refused. -/
theorem IsTree.find {d : Disk} (h : d.IsTree) (cwd : Path) {l : Location} {e : Entry}
    (he : d.entry? l = some e) : d.find cwd ⟨.root, l⟩ =
      match refusal? ⟨.root, l⟩ with
      | some reason => .error reason
      | none => .ok e := by
  have hsteps : steps ⟨.root, l⟩ = l :=
    steps_of_isResolved fun name hname => (h.storable_of_found he name hname).proper
  have hstart : startOf cwd ⟨.root, l⟩ = [] := rfl
  have hfollow : Disk.follow d [] l = .ok l := h.follow he
  unfold Disk.find locate
  rw [hsteps, hstart, hfollow]
  cases refusal? ⟨.root, l⟩ with
  | some reason => rfl
  | none =>
    simp only [bind, Except.bind]
    rw [he]

/-! ## 6. Disks that differ under a location only -/

/-- What is not at a location or under it is found the same on disks that differ only there. -/
theorem find_congr {d d' : Disk} {cwd : Path} {g l : Location}
    (hproper : ∀ name ∈ l, Path.IsProper name) (hl : ¬g <+: l)
    (h : ∀ k, ¬g <+: k → d'.entry? k = d.entry? k) :
    d'.find cwd ⟨.root, l⟩ = d.find cwd ⟨.root, l⟩ := by
  have hsteps : steps ⟨.root, l⟩ = l := steps_of_isResolved hproper
  have hway : Disk.follow d' [] l = Disk.follow d [] l :=
    follow_congr hproper fun n => h _ fun hk => hl (hk.trans (List.take_prefix n l))
  have hstart : startOf cwd ⟨.root, l⟩ = [] := rfl
  unfold find locate
  rw [hsteps, hstart, hway]
  split
  · rfl
  · cases hfollow : Disk.follow d [] l with
    | error reason => rfl
    | ok m =>
      have hm : m = l := by
        rw [eq_foldl_of_follow (fun name hname => (hproper name hname).ne_nil) hfollow,
          Path.foldl_follow hproper]
        simp
      simp only [bind, Except.bind]
      rw [hm, h l hl]

end InlineMarkup.Disk
