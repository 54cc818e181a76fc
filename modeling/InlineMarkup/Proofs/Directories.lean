import InlineMarkup.Proofs.Trees

/-!
# Making directories

Making a directory makes those above it first.  It only ever adds directories where nothing was
(`Paved`), on the way of its path, and it succeeds only if the path leads to a directory afterwards
(`made_makeDirectories`).

Whether it succeeds does not depend on when it is tried.  Once made, a directory is there on any
disk that grows (`makeDirectories_of_leads`).  And what stands in its way is a file, or a name or a
path that is too long, none of which goes away: if it can be made on a disk that has grown, it could
have been made before (`makeDirectories_of_grows`).  Both are about a path of proper names behind
one that leads somewhere, which is what the directory of an output is.
-/

namespace InlineMarkup

/-! ## 1. The length of a path -/

theorem Utf8.size_append (t u : Text) : size (t ++ u) = size t + size u := by
  induction t with
  | nil => simp [size]
  | cons c t ih =>
    have hcons : ∀ v : Text, size (c :: v) = c.utf8Size + size v := fun _ => rfl
    rw [List.cons_append, hcons, hcons, ih]
    omega

theorem Utf8.size_pos {t : Text} (h : t ≠ []) : 0 < size t := by
  cases t with
  | nil => exact absurd rfl h
  | cons c t =>
    have hc := c.utf8Size_pos
    have hcons : size (c :: t) = c.utf8Size + size t := rfl
    omega

theorem Path.size_text_le (p : Path) {name : Text} (h : name ≠ []) :
    Utf8.size p.text ≤ Utf8.size (p.extend [name]).text := by
  have hpos := Utf8.size_pos h
  -- the text of a path is its anchor and its parts, or a dot in their place
  have htext : ∀ q : Path, Utf8.size q.text =
      max 1 (Utf8.size (q.anchor.text ++ Text.joinWith "/" q.parts)) := by
    intro q
    unfold text
    split
    · rename_i hnil
      rw [hnil]
      decide
    · rename_i hne
      have := Utf8.size_pos fun hnil => hne hnil
      omega
  rw [htext, htext]
  have hanchor : (p.extend [name]).anchor = p.anchor := rfl
  have hparts : (p.extend [name]).parts = p.parts ++ [name] := rfl
  rw [hanchor, hparts, Utf8.size_append, Utf8.size_append]
  by_cases hnil : p.parts = []
  · have hzero : Utf8.size (Text.joinWith "/" ([] : List Text)) = 0 := rfl
    rw [hnil, hzero]
    omega
  · rw [Text.joinWith_append _ (List.cons_ne_nil name []) hnil, Utf8.size_append]
    omega

namespace Disk

/-- A path that is not refused has none above it that is. -/
theorem refusal?_of_extend {p : Path} {name : Text} (hname : name ≠ [])
    (h : refusal? (p.extend [name]) = none) : refusal? p = none := by
  unfold refusal? at h ⊢
  by_cases hnul : (p.extend [name]).holdsNul = true
  · rw [if_pos hnul] at h
    cases h
  rw [if_neg hnul] at h
  by_cases hlong : longestPath < Utf8.size (p.extend [name]).text
  · rw [if_pos hlong] at h
    cases h
  have hsize := p.size_text_le hname
  rw [if_neg, if_neg (by omega)]
  intro hp
  apply hnul
  unfold Path.holdsNul at hp ⊢
  rw [Path.extend, List.any_append, hp]
  rfl

theorem refusal?_cases {p : Path} {reason : Reason} (h : refusal? p = some reason) :
    (reason = .embeddedNul ∧ p.holdsNul = true) ∨ reason = .nameTooLong := by
  unfold refusal? at h
  split at h
  · rename_i hnul
    cases h
    exact Or.inl ⟨rfl, hnul⟩
  · split at h
    · cases h
      exact Or.inr rfl
    · cases h

/-! ## 2. Paths that lead to directories -/

variable {d d' : Disk} {cwd p q : Path} {l : Location} {name : Text}

/-- The path leads to the directory at a location. -/
structure Leads (d : Disk) (cwd p : Path) (l : Location) : Prop where
  accepted : refusal? p = none
  follow : Disk.follow d (startOf cwd p) (steps p) = .ok l
  directory : d.entry? l = some .directory

theorem Leads.grows (h : Leads d cwd p l) (hgrows : Grows d d') : Leads d' cwd p l :=
  ⟨h.accepted, follow_grows hgrows h.follow, hgrows.directory h.directory⟩

theorem Leads.eq_resolvedParts (h : Leads d cwd p l) : l = Path.resolvedParts cwd p :=
  eq_resolvedParts_of_follow h.follow

/-- What a path leads to is what stands where it resolves to, if the way there is open. -/
theorem find_eq_ok_iff {e : Entry} :
    d.find cwd p = .ok e ↔ refusal? p = none ∧
      Disk.follow d (startOf cwd p) (steps p) = .ok (Path.resolvedParts cwd p) ∧
      d.entry? (Path.resolvedParts cwd p) = some e := by
  unfold find locate
  cases hrefusal : refusal? p with
  | some reason => simp [bind, Except.bind]
  | none =>
    cases hfollow : Disk.follow d (startOf cwd p) (steps p) with
    | error reason => simp [bind, Except.bind]
    | ok m =>
      rw [eq_resolvedParts_of_follow hfollow]
      simp only [bind, Except.bind, true_and]
      split
      · rename_i he
        simp [he]
      · rename_i he
        simp [he]

theorem look_eq_some_iff {e : Entry} : d.look cwd p = .ok (some e) ↔ d.find cwd p = .ok e := by
  unfold look
  split
  · rename_i h
    simp [h]
  · rename_i h
    simp [h]
  · rename_i h
    simp [h]

theorem isDirectory_iff_look :
    d.isDirectory cwd p = .ok true ↔ d.look cwd p = .ok (some .directory) := by
  unfold isDirectory
  cases d.look cwd p with
  | error f => simp
  | ok e =>
    cases e with
    | none => simp
    | some e => cases e <;> simp

theorem isDirectory_eq_true_iff :
    d.isDirectory cwd p = .ok true ↔ Leads d cwd p (Path.resolvedParts cwd p) := by
  rw [isDirectory_iff_look, look_eq_some_iff, find_eq_ok_iff]
  exact ⟨fun ⟨h₁, h₂, h₃⟩ => ⟨h₁, h₂, h₃⟩, fun h => ⟨h.accepted, h.follow, h.directory⟩⟩

theorem isDirectory_eq_error {f : Fault} (h : d.isDirectory cwd p = .error f) :
    f.reason = .nameTooLong := by
  unfold isDirectory look at h
  split at h
  · cases h
  · cases h
  · rename_i f' hlook
    cases h
    split at hlook
    · cases hlook
    · cases hlook
      rfl
    · cases hlook

/-- Accepting a directory changes nothing, and a fault is the one before, that the path is too long,
or a refusal. -/
theorem acceptDirectory_cases {reason : Reason} {refusal : Option Refusal} {r : Except Fault Unit}
    (h : d.acceptDirectory cwd p reason refusal = (r, d')) :
    d' = d ∧ (r = .ok () → Leads d cwd p (Path.resolvedParts cwd p)) ∧
      ∀ f, r = .error f →
        f.reason = reason ∨ f.reason = .nameTooLong ∨ ∃ given, f.reason = .refused given := by
  unfold acceptDirectory at h
  split at h
  · rename_i given
    cases h
    refine ⟨rfl, nofun, fun f hf => ?_⟩
    cases hf
    exact Or.inr (Or.inr ⟨given, rfl⟩)
  · split at h
    · rename_i hdir
      cases h
      exact ⟨rfl, fun _ => isDirectory_eq_true_iff.mp hdir, nofun⟩
    · cases h
      refine ⟨rfl, nofun, fun f hf => ?_⟩
      cases hf
      exact Or.inl rfl
    · rename_i f hdir
      cases h
      refine ⟨rfl, nofun, fun f' hf => ?_⟩
      cases hf
      exact Or.inr (Or.inl (isDirectory_eq_error hdir))

theorem acceptDirectory_of_leads (h : Leads d cwd p l) (reason : Reason) :
    d.acceptDirectory cwd p reason = (.ok (), d) := by
  have hdir : d.isDirectory cwd p = .ok true :=
    isDirectory_eq_true_iff.mpr (h.eq_resolvedParts ▸ h)
  rw [acceptDirectory, hdir]

/-! ## 3. Places -/

theorem noNul_of_mem_steps (h : refusal? p = none) (hname : name ∈ steps p) : Path.nul ∉ name := by
  intro hnul
  obtain ⟨part, hpart, hpiece⟩ := List.mem_flatMap.mp (List.mem_filter.mp hname).1
  have hholds : p.holdsNul = true := by
    rw [Path.holdsNul, List.any_eq_true]
    exact ⟨part, hpart, by simpa using Text.mem_of_mem_splitAt hpiece hnul⟩
  rw [refusal?, if_pos hholds] at h
  cases h

/-- **A place is in a directory, and is where its path resolves to.** -/
theorem place_eq_named {directory : Location} (h : d.place cwd p = .ok (.named directory name)) :
    refusal? p = none ∧ d.entry? directory = some .directory ∧ IsStorable name ∧
      directory ++ [name] = Path.resolvedParts cwd p ∧
      ∃ names, steps p = names ++ [name] ∧
        Disk.follow d (startOf cwd p) names = .ok directory := by
  unfold place locate at h
  dsimp only at h
  cases hrefusal : refusal? p with
  | some reason => rw [hrefusal] at h; cases h
  | none =>
    rw [hrefusal] at h
    cases hfollow : Disk.follow d (startOf cwd p) (steps p).dropLast with
    | error reason => rw [hfollow] at h; cases h
    | ok m =>
      simp only [hfollow, bind, Except.bind] at h
      split at h
      · cases h
      · rename_i last hdir hlast
        split at h
        · cases h
        · rename_i hproper
          rw [not_or] at hproper
          split at h
          · cases h
          · rename_i hshort
            cases h
            have hsteps := List.dropLast_append_getLast? name hlast
            have hmem : name ∈ steps p := List.mem_of_getLast? hlast
            obtain ⟨part, -, hpiece⟩ := List.mem_flatMap.mp (List.mem_filter.mp hmem).1
            have hname : Path.IsProper name :=
              ⟨ne_nil_of_mem_steps hmem, hproper.1, hproper.2, Text.notMem_of_mem_splitAt hpiece⟩
            refine ⟨rfl, hdir, ⟨hname, noNul_of_mem_steps hrefusal hmem, by simpa using hshort⟩,
              ?_, (steps p).dropLast, hsteps.symm, hfollow⟩
            have hdirectory := eq_foldl_of_follow
              (fun n hn => ne_nil_of_mem_steps (List.mem_of_mem_dropLast hn)) hfollow
            rw [← foldl_follow_steps, ← hsteps, List.foldl_append, List.foldl_cons, List.foldl_nil,
              Path.follow_of_isProper hname, List.reverse_cons, ← hdirectory]
      · cases h
      · cases h

/-- The place of a name behind a path that leads to a directory. -/
theorem place_of_leads (h : Leads d cwd q l) (hname : Path.IsProper name)
    (haccepted : refusal? (q.extend [name]) = none) :
    d.place cwd (q.extend [name]) =
      if isTooLong name then .error .nameTooLong else .ok (.named l name) := by
  have hsteps : steps (q.extend [name]) = steps q ++ [name] :=
    steps_append q fun n hn => List.mem_singleton.mp hn ▸ hname
  have hstart : startOf cwd (q.extend [name]) = startOf cwd q := rfl
  unfold place locate
  dsimp only
  rw [haccepted, hsteps, List.dropLast_concat, hstart]
  simp only [h.follow, bind, Except.bind, h.directory, List.getLast?_append,
    List.getLast?_singleton,
    Option.some_or, hname.ne_here, hname.ne_above, or_self, if_false]

theorem place_of_refusal {reason : Reason} (h : refusal? p = some reason) :
    d.place cwd p = .error reason := by
  unfold place locate
  rw [h]
  rfl

/-- On the way to a directory that is there, nothing is missing. -/
theorem Leads.place_ne_missing (h : Leads d cwd p l) : d.place cwd p ≠ .error .missing := by
  have hfollow := h.follow
  unfold place locate
  dsimp only
  rw [h.accepted]
  rcases List.eq_nil_or_concat (steps p) with hnil | ⟨names, last, hsteps⟩
  · rw [hnil]
    intro hmissing
    cases hmissing
  · rw [List.concat_eq_append] at hsteps
    rw [hsteps, follow_append] at hfollow
    rw [hsteps, List.dropLast_concat]
    split at hfollow
    · rename_i m hm
      -- from where the names lead, the last one leads on, so a directory is there
      have hdir : d.entry? m = some .directory := by
        rw [Disk.follow] at hfollow
        split at hfollow
        · cases hfollow
        · cases hfollow
        · assumption
      simp only [hm, bind, Except.bind, hdir, List.getLast?_append, List.getLast?_singleton,
        Option.some_or]
      intro hmissing
      split at hmissing
      · cases hmissing
      · split at hmissing <;> cases hmissing
    · cases hfollow

/-! ## 4. One directory -/

theorem makeDirectory_eq_ok {refusal : Option Refusal}
    (h : d.makeDirectory cwd p refusal = .ok d') :
    ∃ directory name, d.place cwd p = .ok (.named directory name) ∧
      d.entry? (directory ++ [name]) = none ∧
      d' = d.insert (directory ++ [name]) .directory := by
  unfold makeDirectory at h
  split at h
  · cases h
  · split at h
    · cases h
    · cases h
    · rename_i directory name hplace
      split at h
      · cases h
      · rename_i hnone
        cases h
        exact ⟨directory, name, hplace, by simpa using hnone, rfl⟩

theorem makeDirectory_of_leads (h : Leads d cwd q l) (hname : Path.IsProper name)
    (haccepted : refusal? (q.extend [name]) = none) (hshort : isTooLong name = false) :
    d.makeDirectory cwd (q.extend [name]) =
      if (d.entry? (l ++ [name])).isSome then .error .alreadyExists
      else .ok (d.insert (l ++ [name]) .directory) := by
  rw [makeDirectory, place_of_leads h hname haccepted, hshort]
  rfl

/-- A name behind a path that leads to a directory leads to a directory if one is there. -/
theorem Leads.extend (h : Leads d cwd q l) (hname : Path.IsProper name)
    (haccepted : refusal? (q.extend [name]) = none) (hshort : isTooLong name = false)
    (hdir : d.entry? (l ++ [name]) = some .directory) :
    Leads d cwd (q.extend [name]) (l ++ [name]) where
  accepted := haccepted
  follow := by
    have hsteps : steps (q.extend [name]) = steps q ++ [name] :=
      steps_append q fun n hn => List.mem_singleton.mp hn ▸ hname
    have hstart : startOf cwd (q.extend [name]) = startOf cwd q := rfl
    rw [hsteps, hstart, follow_append, h.follow]
    exact follow_cons_of_isProper [] h.directory hname hshort (by rw [hdir]; rfl)
  directory := hdir

/-! ## 5. What is made -/

/-- Only directories have been made, where nothing was and where `P` holds. -/
def Paved (P : Location → Prop) (d d' : Disk) : Prop :=
  ∀ l, d'.entry? l = d.entry? l ∨ d.entry? l = none ∧ d'.entry? l = some .directory ∧ P l

namespace Paved

variable {P Q : Location → Prop} {d d' d'' : Disk}

theorem refl (P : Location → Prop) (d : Disk) : Paved P d d := fun _ => Or.inl rfl

theorem imp (h : Paved P d d') (hPQ : ∀ l, d.entry? l = none → P l → Q l) : Paved Q d d' := by
  intro l
  rcases h l with hl | ⟨hnone, hdir, hP⟩
  · exact Or.inl hl
  · exact Or.inr ⟨hnone, hdir, hPQ l hnone hP⟩

theorem trans (h : Paved P d d') (h' : Paved P d' d'') : Paved P d d'' := by
  intro l
  rcases h l with hl | ⟨hnone, hdir, hP⟩
  · rcases h' l with hl' | ⟨hnone, hdir, hP⟩
    · exact Or.inl (hl'.trans hl)
    · exact Or.inr ⟨hl ▸ hnone, hdir, hP⟩
  · rcases h' l with hl' | ⟨hnone', -, -⟩
    · exact Or.inr ⟨hnone, hl'.trans hdir, hP⟩
    · rw [hdir] at hnone'
      cases hnone'

theorem grows (h : Paved P d d') : Grows d d' where
  directory {l} hl := by
    rcases h l with heq | ⟨hnone, -, -⟩
    · rw [heq, hl]
    · rw [hnone] at hl
      cases hl
  file {l bytes} hl := by
    rcases h l with heq | ⟨hnone, -, -⟩
    · exact ⟨bytes, heq.trans hl⟩
    · rw [hnone] at hl
      cases hl

theorem content? (h : Paved P d d') (l : Location) : d'.content? l = d.content? l := by
  rcases h l with heq | ⟨hnone, hdir, -⟩
  · exact content?_congr heq
  · rw [Disk.content?, Disk.content?, hnone, hdir]

theorem insert {l : Location} (hl : l ≠ []) (hnone : d.entry? l = none) (hP : P l) :
    Paved P d (d.insert l .directory) := by
  intro k
  rw [entry?_insert d hl]
  split
  · rename_i hkl
    exact Or.inr ⟨hkl ▸ hnone, rfl, hkl ▸ hP⟩
  · exact Or.inl rfl

end Paved

/-- A beginning of the path leads here. -/
def OnTheWay (cwd p : Path) (l : Location) : Prop :=
  ∃ n, l = Path.resolvedParts cwd ⟨p.anchor, p.parts.take n⟩

/-- On the way to a directory that is there, something is everywhere. -/
theorem Leads.ne_none_of_onTheWay (h : Leads d cwd p l) {k : Location} (hk : OnTheWay cwd p k) :
    d.entry? k ≠ none := by
  obtain ⟨n, rfl⟩ := hk
  have hsteps : steps p = steps ⟨p.anchor, p.parts.take n⟩ ++ steps ⟨p.anchor, p.parts.drop n⟩ := by
    rw [steps, steps, steps, ← List.filter_append, ← List.flatMap_append, List.take_append_drop]
  have hfollow := h.follow
  rw [hsteps, follow_append] at hfollow
  split at hfollow
  · rename_i m hm
    have hstart : startOf cwd p = startOf cwd ⟨p.anchor, p.parts.take n⟩ := rfl
    rw [hstart] at hm
    rw [← eq_resolvedParts_of_follow hm]
    cases hrest : steps ⟨p.anchor, p.parts.drop n⟩ with
    | nil =>
      rw [hrest] at hfollow
      cases hfollow
      rw [h.directory]
      exact Option.some_ne_none _
    | cons name rest =>
      intro hnone
      rw [hrest, Disk.follow, hnone] at hfollow
      cases hfollow
  · cases hfollow

theorem onTheWay_self (cwd p : Path) : OnTheWay cwd p (Path.resolvedParts cwd p) :=
  ⟨p.parts.length, by rw [List.take_length]⟩

theorem OnTheWay.of_parent (h : OnTheWay cwd p.parent l) : OnTheWay cwd p l := by
  obtain ⟨n, rfl⟩ := h
  refine ⟨min n (p.parts.length - 1), ?_⟩
  rw [Path.parent, List.dropLast_eq_take, List.take_take]

/-- What an attempt at making a directory leads to: the ways are paved, a tree stays one, and if the
attempt succeeds the path leads to a directory. -/
structure Made (cwd p : Path) (d : Disk) (r : Except Fault Unit) (d' : Disk) : Prop where
  paved : Paved (OnTheWay cwd p) d d'
  tree : d.IsTree → d'.IsTree
  leads : r = .ok () → Leads d' cwd p (Path.resolvedParts cwd p)

theorem made_makeDirectory {refusal : Option Refusal} (h : d.makeDirectory cwd p refusal = .ok d') :
    Made cwd p d (.ok ()) d' := by
  obtain ⟨directory, name, hplace, hnone, rfl⟩ := makeDirectory_eq_ok h
  obtain ⟨haccepted, hdir, hname, hresolved, names, hsteps, hfollow⟩ := place_eq_named hplace
  have hne : directory ++ [name] ≠ [] := by simp
  have hway : OnTheWay cwd p (directory ++ [name]) := hresolved ▸ onTheWay_self cwd p
  have hgrows := Grows.insert_directory hne hnone
  have hnew : entry? (d.insert (directory ++ [name]) .directory) (directory ++ [name]) =
      some .directory := by
    rw [entry?_insert d hne, if_pos rfl]
  refine ⟨.insert hne hnone hway, fun htree => htree.insert hdir hname fun _ => rfl, fun _ => ?_⟩
  refine ⟨haccepted, ?_, hresolved ▸ hnew⟩
  rw [hsteps, follow_append, follow_grows hgrows hfollow, ← hresolved]
  exact follow_cons_of_isProper [] (hgrows.directory hdir) hname.proper hname.short
    (by rw [hnew]; rfl)

theorem made_acceptDirectory {reason : Reason} {refusal : Option Refusal} {r : Except Fault Unit}
    (h : d.acceptDirectory cwd p reason refusal = (r, d')) : Made cwd p d r d' := by
  obtain ⟨rfl, hok, -⟩ := acceptDirectory_cases h
  exact ⟨.refl _ _, fun htree => htree, hok⟩

/-- **Making a directory with those above it** paves the way and, if it succeeds, leads there,
whatever is refused.  The recursion is that of the definition, on the parts of the path. -/
theorem made_makeDirectories (cwd : Path) : ∀ (p : Path) (d : Disk) {c : Conditions}
    {r : Except Fault Unit} {d' : Disk},
    d.makeDirectories cwd p c = (r, d') → Made cwd p d r d' := by
  intro p d c r d' h
  rw [makeDirectories] at h
  split at h
  · rename_i d₁ hmade
    cases h
    exact made_makeDirectory hmade
  · split at h
    · cases h
      exact ⟨.refl _ _, fun htree => htree, fun h => by cases h⟩
    · rename_i hne
      have hlt : p.parent.parts.length < p.parts.length := by
        have := List.length_pos_iff.mpr hne
        rw [Path.parent, List.length_dropLast]
        omega
      split at h
      · rename_i f d₁ habove
        cases h
        have hup := made_makeDirectories cwd p.parent d habove
        exact ⟨hup.paved.imp fun _ _ => OnTheWay.of_parent, hup.tree, fun h => by cases h⟩
      · rename_i d₁ habove
        have hup := made_makeDirectories cwd p.parent d habove
        have hpaved : Paved (OnTheWay cwd p) d d₁ := hup.paved.imp fun _ _ => OnTheWay.of_parent
        have hlast : Made cwd p d₁ r d' := by
          split at h
          · rename_i d₂ hmade
            cases h
            exact made_makeDirectory hmade
          · cases h
            exact ⟨.refl _ _, fun htree => htree, fun h => by cases h⟩
          · exact made_acceptDirectory h
        exact ⟨hpaved.trans hlast.paved, fun htree => hlast.tree (hup.tree htree), hlast.leads⟩
  · exact made_acceptDirectory h
termination_by p => p.parts.length

/-- A directory that is there needs no making. -/
theorem makeDirectories_of_leads (h : Leads d cwd p l) : d.makeDirectories cwd p = (.ok (), d) := by
  have hnot : d.makeDirectory cwd p ≠ .error .missing := by
    have hplace := h.place_ne_missing
    unfold makeDirectory
    dsimp only
    split
    · rename_i reason hreason
      intro hmissing
      cases hmissing
      exact hplace hreason
    · exact nofun
    · split <;> exact nofun
  rw [makeDirectories]
  split
  · rename_i d₁ hmade
    -- it would have been made where nothing is
    obtain ⟨directory, name, hplace, hnone, -⟩ := makeDirectory_eq_ok hmade
    obtain ⟨-, -, -, hresolved, -⟩ := place_eq_named hplace
    rw [hresolved, ← h.eq_resolvedParts, h.directory] at hnone
    cases hnone
  · rename_i hmissing
    exact absurd hmissing hnot
  · exact acceptDirectory_of_leads h _

/-! ## 6. What stands in the way -/

/-- Along these names nothing is in the way of directories: no name is too long, and no file is
where a directory has to be. -/
structure Clear (d : Disk) (l : Location) (names : List Text) : Prop where
  short : ∀ name ∈ names, isTooLong name = false
  noFile : ∀ n, d.content? (l ++ names.take n) = none

section Clear

variable {names : List Text}

theorem Clear.of_grows (hgrows : Grows d d') (h : Clear d' l names) : Clear d l names where
  short := h.short
  noFile n := by
    cases hcontent : d.content? (l ++ names.take n) with
    | none => rfl
    | some bytes =>
      obtain ⟨bytes', hfile⟩ := hgrows.file (content?_eq_some_iff.mp hcontent)
      have hnone := h.noFile n
      rw [content?_eq_some_iff.mpr hfile] at hnone
      cases hnone

/-- On the way to a directory nothing is in the way of it. -/
theorem IsTree.clear (htree : d.IsTree) (h : d.entry? (l ++ names) = some .directory) :
    Clear d l names where
  short name hname := (htree.storable_of_found h name (List.mem_append_right l hname)).short
  noFile n := by
    have hdir : d.entry? (l ++ names.take n) = some .directory := by
      by_cases hall : names.length ≤ n
      · rwa [List.take_of_length_le hall]
      · have hsplit : d.entry? (l ++ names.take n ++ names.drop n) = some .directory := by
          rwa [List.append_assoc, List.take_append_drop]
        exact htree.directory_above (by simpa using hall) hsplit
    rw [content?, hdir]

theorem Clear.dropLast (h : Clear d l (names ++ [name])) : Clear d l names where
  short n hn := h.short n (List.mem_append_left _ hn)
  noFile n := by
    have := h.noFile (min n names.length)
    rwa [List.take_append_of_le_length (Nat.min_le_right _ _), ← List.take_eq_take_min] at this

theorem Clear.not_file (h : Clear d l names) : d.content? (l ++ names) = none := by
  have := h.noFile names.length
  rwa [List.take_length] at this

/-- Along names that are clear, a directory is at the end, or something is missing. -/
theorem follow_of_clear : ∀ {names : List Text} {l : Location},
    (∀ name ∈ names, Path.IsProper name) →
    d.entry? l = some .directory → Clear d l names →
    (Disk.follow d l names = .ok (l ++ names) ∧ d.entry? (l ++ names) = some .directory) ∨
      Disk.follow d l names = .error .missing
  | [], l, _, hdir, _ => by
    rw [List.append_nil]
    exact Or.inl ⟨rfl, hdir⟩
  | name :: names, l, hproper, hdir, hclear => by
    have hname := hproper name List.mem_cons_self
    have hshort := hclear.short name List.mem_cons_self
    have hrest : Clear d (l ++ [name]) names :=
      ⟨fun n hn => hclear.short n (List.mem_cons_of_mem name hn), fun n => by
        simpa using hclear.noFile (n + 1)⟩
    cases hnext : d.entry? (l ++ [name]) with
    | none =>
      refine Or.inr ?_
      rw [Disk.follow, hdir]
      simp [hname.ne_here, hname.ne_above, hshort, hnext]
    | some e =>
      have hnext' : d.entry? (l ++ [name]) = some .directory := by
        cases e with
        | directory => exact hnext
        | file bytes =>
          have hnone := hclear.noFile 1
          rw [List.take_one, List.head?_cons, Option.toList_some,
            content?_eq_some_iff.mpr hnext] at hnone
          cases hnone
      have ih := follow_of_clear (fun n hn => hproper n (List.mem_cons_of_mem name hn)) hnext' hrest
      rw [follow_cons_of_isProper names hdir hname hshort (by rw [hnext]; rfl)]
      simpa using ih

/-- Only a path that holds a NUL is refused for it. -/
theorem place_ne_embeddedNul (h : p.holdsNul = false) : d.place cwd p ≠ .error .embeddedNul := by
  unfold place locate
  dsimp only
  cases hrefusal : refusal? p with
  | some reason =>
    rcases refusal?_cases hrefusal with ⟨-, hnul⟩ | rfl
    · rw [h] at hnul
      cases hnul
    · exact nofun
  | none =>
    have hfollow := follow_ne_embeddedNul d (steps p).dropLast (startOf cwd p)
    dsimp only
    cases hm : Disk.follow d (startOf cwd p) (steps p).dropLast with
    | error reason =>
      rw [hm] at hfollow
      simpa [bind, Except.bind] using hfollow
    | ok m =>
      simp only [bind, Except.bind]
      split
      · exact nofun
      · split
        · exact nofun
        · split <;> exact nofun
      · exact nofun
      · exact nofun

theorem makeDirectories_of_holdsNul (h : p.holdsNul = true) :
    d.makeDirectories cwd p = (.error ⟨.embeddedNul, p.text, none⟩, d) := by
  have hrefusal : refusal? p = some .embeddedNul := by rw [refusal?, if_pos h]
  have hmake : d.makeDirectory cwd p = .error .embeddedNul := by
    rw [makeDirectory, place_of_refusal hrefusal]
  have hfind : d.find cwd p = .error .embeddedNul := by
    rw [find, locate, hrefusal]
    rfl
  rw [makeDirectories, hmake]
  dsimp only
  rw [acceptDirectory, isDirectory, look, hfind]

/-- In a directory that is there, another cannot be made because of what is there or of its name. -/
theorem Leads.reason_of_makeDirectory (h : Leads d cwd q l) (hname : Path.IsProper name)
    (hnul : (q.extend [name]).holdsNul = false) {reason : Reason}
    (hmake : d.makeDirectory cwd (q.extend [name]) = .error reason) :
    reason = .alreadyExists ∨ reason = .nameTooLong := by
  unfold makeDirectory at hmake
  cases hrefusal : refusal? (q.extend [name]) with
  | some reason' =>
    rw [place_of_refusal hrefusal] at hmake
    cases hmake
    rcases refusal?_cases hrefusal with ⟨-, hholds⟩ | hlong
    · rw [hnul] at hholds
      cases hholds
    · exact Or.inr hlong
  | none =>
    rw [place_of_leads h hname hrefusal] at hmake
    by_cases hlong : isTooLong name = true
    · rw [if_pos hlong] at hmake
      cases hmake
      exact Or.inr rfl
    · rw [if_neg hlong] at hmake
      dsimp only at hmake
      split at hmake
      · cases hmake
        exact Or.inl rfl
      · cases hmake

/-- Where no file is, a directory can be made or is there. -/
theorem Leads.makeDirectory_of_not_file (h : Leads d cwd q l) (hname : Path.IsProper name)
    (haccepted : refusal? (q.extend [name]) = none) (hshort : isTooLong name = false)
    (hfile : d.content? (l ++ [name]) = none) :
    (∃ d', d.makeDirectory cwd (q.extend [name]) = .ok d') ∨
      d.makeDirectory cwd (q.extend [name]) = .error .alreadyExists ∧
        Leads d cwd (q.extend [name]) (l ++ [name]) := by
  rw [makeDirectory_of_leads h hname haccepted hshort]
  cases he : d.entry? (l ++ [name]) with
  | none => exact Or.inl ⟨_, rfl⟩
  | some e =>
    cases e with
    | file bytes =>
      rw [content?_eq_some_iff.mpr he] at hfile
      cases hfile
    | directory => exact Or.inr ⟨rfl, h.extend hname haccepted hshort he⟩

theorem makeDirectory_ne_embeddedNul (h : p.holdsNul = false) (refusal : Option Refusal) :
    d.makeDirectory cwd p refusal ≠ .error .embeddedNul := by
  have hplace : d.place cwd p ≠ .error .embeddedNul := place_ne_embeddedNul h
  unfold makeDirectory
  split
  · exact nofun
  · split
    · rename_i reason hreason
      intro heq
      cases heq
      exact hplace hreason
    · exact nofun
    · split <;> exact nofun

theorem refusal?_of_missing (h : d.makeDirectory cwd p = .error .missing) : refusal? p = none := by
  cases hrefusal : refusal? p with
  | none => rfl
  | some reason =>
    rw [makeDirectory, place_of_refusal hrefusal] at h
    cases h
    rcases refusal?_cases hrefusal with ⟨hreason, -⟩ | hreason <;> cases hreason

/-- A directory is not made in one that is missing. -/
theorem makeDirectory_of_missing (hname : Path.IsProper name)
    (haccepted : refusal? (q.extend [name]) = none)
    (h : Disk.follow d (startOf cwd q) (steps q) = .error .missing) :
    d.makeDirectory cwd (q.extend [name]) = .error .missing := by
  have hsteps : steps (q.extend [name]) = steps q ++ [name] :=
    steps_append q fun n hn => List.mem_singleton.mp hn ▸ hname
  have hstart : startOf cwd (q.extend [name]) = startOf cwd q := rfl
  unfold makeDirectory place locate
  dsimp only
  rw [haccepted, hsteps, List.dropLast_concat, hstart]
  dsimp only
  rw [h]
  rfl

/-- Behind a path that leads to a directory, clear names lead to another, or something is
missing. -/
theorem Leads.extend_of_clear (h : Leads d cwd q l) (hproper : ∀ name ∈ names, Path.IsProper name)
    (haccepted : refusal? (q.extend names) = none) (hclear : Clear d l names) :
    Leads d cwd (q.extend names) (l ++ names) ∨
      Disk.follow d (startOf cwd (q.extend names)) (steps (q.extend names)) = .error .missing := by
  have hstart : startOf cwd (q.extend names) = startOf cwd q := rfl
  have hfollow : Disk.follow d (startOf cwd (q.extend names)) (steps (q.extend names)) =
      Disk.follow d l names := by
    rw [steps_append q hproper, hstart, follow_append, h.follow]
  rw [hfollow]
  rcases follow_of_clear hproper h.directory hclear with ⟨hend, hdir⟩ | hmissing
  · exact Or.inl ⟨haccepted, hfollow.trans hend, hdir⟩
  · exact Or.inr hmissing

theorem holdsNul_of_extend (h : (q.extend [name]).holdsNul = false) : q.holdsNul = false := by
  unfold Path.holdsNul Path.extend at h
  rw [List.any_append, Bool.or_eq_false_iff] at h
  exact h.1

/-- When a directory has not been made in one that is there, it is there already or something else
is in its place. -/
theorem Leads.acceptDirectory (h : Leads d cwd q l) (hname : Path.IsProper name)
    (hnul : (q.extend [name]).holdsNul = false) {reason : Reason} {r : Except Fault Unit}
    (hmake : d.makeDirectory cwd (q.extend [name]) = .error reason)
    (haccept : d.acceptDirectory cwd (q.extend [name]) reason = (r, d')) :
    (refusal? (q.extend [name]) = none → isTooLong name = false → d.content? (l ++ [name]) = none →
      r = .ok ()) ∧ ∀ f, r = .error f → f.reason ≠ .missing ∧ f.reason ≠ .embeddedNul := by
  refine ⟨fun haccepted hshort hfile => ?_, fun f hf => ?_⟩
  · rcases h.makeDirectory_of_not_file hname haccepted hshort hfile with ⟨d₂, hok⟩ | ⟨-, hthere⟩
    · rw [hok] at hmake
      cases hmake
    · rw [acceptDirectory_of_leads hthere] at haccept
      cases haccept
      rfl
  · rcases (acceptDirectory_cases haccept).2.2 f hf with heq | heq | ⟨given, heq⟩
    · rw [heq]
      rcases h.reason_of_makeDirectory hname hnul hmake with rfl | rfl <;> simp
    · simp [heq]
    · simp [heq]

/-- **Behind a path that leads to a directory, others can be made where the way is clear**; and
where they cannot, that is not because something is missing.  The induction is on the names, from
the end, as the definition goes up the path. -/
theorem makeDirectories_behind (hleads : Leads d cwd q l) : ∀ {names : List Text}
    {r : Except Fault Unit} {d' : Disk}, (∀ name ∈ names, Path.IsProper name) →
    (q.extend names).holdsNul = false → d.makeDirectories cwd (q.extend names) = (r, d') →
    (refusal? (q.extend names) = none → Clear d l names → r = .ok ()) ∧
      ∀ f, r = .error f → f.reason ≠ .missing ∧ f.reason ≠ .embeddedNul := by
  intro names
  induction names using List.reverseRecOn with
  | nil =>
    intro r d' _ _ h
    rw [Path.extend_nil, makeDirectories_of_leads hleads] at h
    cases h
    exact ⟨fun _ _ => rfl, fun f hf => by cases hf⟩
  | append_singleton names name ih =>
    intro r d' hproper hnul h
    have hname := hproper name (by simp)
    have hproper' : ∀ n ∈ names, Path.IsProper n := fun n hn => hproper n (by simp [hn])
    rw [Path.extend_append] at hnul h ⊢
    have hnul' := holdsNul_of_extend hnul
    have hparent : ((q.extend names).extend [name]).parent = q.extend names := by
      rw [← Path.extend_append, Path.parent_extend]
    rw [makeDirectories] at h
    split at h
    · cases h
      exact ⟨fun _ _ => rfl, fun f hf => by cases hf⟩
    · rename_i hmissing
      have haccepted : refusal? ((q.extend names).extend [name]) = none :=
        refusal?_of_missing hmissing
      rw [if_neg (by simp [Path.extend]), hparent] at h
      split at h
      · rename_i f d₁ habove
        cases h
        obtain ⟨hok, hfault⟩ := ih hproper' hnul' habove
        refine ⟨fun _ hclear => ?_, hfault⟩
        cases hok (refusal?_of_extend hname.ne_nil haccepted) hclear.dropLast
      · rename_i d₁ habove
        have hmade := made_makeDirectories cwd _ d habove
        have hup : Leads d₁ cwd (q.extend names) (l ++ names) := by
          have := hmade.leads rfl
          rwa [Path.resolvedParts_append cwd q hproper', ← hleads.eq_resolvedParts] at this
        split at h
        · cases h
          exact ⟨fun _ _ => rfl, fun f hf => by cases hf⟩
        · rename_i hmake
          rcases hup.reason_of_makeDirectory hname hnul hmake with hreason | hreason
          · cases hreason
          · cases hreason
        · rename_i reason hmake
          obtain ⟨hok, hfault⟩ := hup.acceptDirectory hname hnul hmake h
          refine ⟨fun _ hclear => hok haccepted (hclear.short name (by simp)) ?_, hfault⟩
          rw [List.append_assoc, hmade.paved.content?]
          exact hclear.not_file
    · rename_i reason hmissing hmake
      refine ⟨fun haccepted hclear => ?_, fun f hf => ?_⟩
      · rcases hleads.extend_of_clear hproper' (refusal?_of_extend hname.ne_nil haccepted)
          hclear.dropLast with hup | hnone
        · refine
            (hup.acceptDirectory hname hnul hmake h).1 haccepted (hclear.short name (by simp)) ?_
          rw [List.append_assoc]
          exact hclear.not_file
        · rw [makeDirectory_of_missing hname haccepted hnone] at hmake
          cases hmake
          exact absurd rfl hmissing
      · rcases (acceptDirectory_cases h).2.2 f hf with heq | heq | ⟨given, heq⟩
        · rw [heq]
          exact ⟨hmissing, fun hreason => makeDirectory_ne_embeddedNul hnul none (hreason ▸ hmake)⟩
        · simp [heq]
        · simp [heq]

/-- The fault of an attempt that comes to nothing, and what decides it. -/
theorem mayPass_of_makeDirectories (hleads : Leads d cwd q l)
    (hproper : ∀ name ∈ names, Path.IsProper name) {f : Fault}
    (h : d.makeDirectories cwd (q.extend names) = (.error f, d')) :
    f.reason ≠ .missing ∧ (FileFault.disk f).mayPass = !(q.extend names).holdsNul := by
  cases hnul : (q.extend names).holdsNul with
  | true =>
    rw [makeDirectories_of_holdsNul hnul] at h
    cases h
    exact ⟨nofun, rfl⟩
  | false =>
    obtain ⟨hmissing, hembedded⟩ := (makeDirectories_behind hleads hproper hnul h).2 f rfl
    exact ⟨hmissing, by
      simp [FileFault.mayPass, FileFault.isOfSystem, FileFault.isMissing, hmissing, hembedded]⟩

/-- **A directory that could not be made cannot be made later**: what is in its way stays there. -/
theorem makeDirectories_of_grows (hleads : Leads d cwd q l) (htree : d'.IsTree)
    (hproper : ∀ name ∈ names, Path.IsProper name) (hgrows : Grows d d') {d₁' : Disk}
    (h : d'.makeDirectories cwd (q.extend names) = (.ok (), d₁')) :
    ∃ d₁, d.makeDirectories cwd (q.extend names) = (.ok (), d₁) := by
  have hmade := made_makeDirectories cwd _ d' h
  have hthere := hmade.leads rfl
  have hnul : (q.extend names).holdsNul = false := by
    by_contra hholds
    rw [makeDirectories_of_holdsNul (by simpa using hholds)] at h
    cases h
  have hdir : d₁'.entry? (l ++ names) = some .directory := by
    rw [hleads.eq_resolvedParts, ← Path.resolvedParts_append cwd q hproper]
    exact hthere.directory
  have hclear : Clear d l names :=
    ((hmade.tree htree).clear hdir).of_grows (hgrows.trans hmade.paved.grows)
  obtain ⟨⟨r, d₁⟩, hmake⟩ : ∃ made, d.makeDirectories cwd (q.extend names) = made := ⟨_, rfl⟩
  have hr := (makeDirectories_behind hleads hproper hnul hmake).1 hthere.accepted hclear
  exact ⟨d₁, by rw [hmake, hr]⟩

end Clear

end Disk

end InlineMarkup
