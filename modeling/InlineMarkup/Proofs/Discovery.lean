import InlineMarkup.Project.Sources
import InlineMarkup.Proofs.Trees

/-!
# How sources are found

Paths are in a linear order, so a list of paths in order is known from its members
(`sorted_congr`).  The members of the list of sources are the files under the source roots that the
search accepts (`mem_sources_iff`); in what order a disk lists its files has no part in it.

None of them lies under the generated directory (`isElsewhere_of_mem_sources`).  So, as long as no
source root lies there either, what is in the generated directory has no part in it, either
(`sources_congr`).
-/

namespace InlineMarkup

/-! ## 1. The order of paths -/

theorem Text.precedes_iff_lt : ∀ {a b : Text}, precedes a b = true ↔ a < b
  | _, [] => by simp [precedes]
  | [], _ :: _ => by simp [precedes]
  | a :: as, b :: bs => by
    have hchar : a < b ↔ a.toNat < b.toNat := Iff.rfl
    rw [precedes, List.cons_lt_cons_iff, hchar, ← precedes_iff_lt]
    simp

namespace Path

theorem keyLe_iff_not_lt : ∀ {a b : List Text}, keyLe a b = true ↔ ¬b < a
  | [], _ => by simp [keyLe]
  | _ :: _, [] => by simp [keyLe]
  | a :: as, b :: bs => by
    rw [keyLe, List.cons_lt_cons_iff, Bool.or_eq_true, Bool.and_eq_true, beq_iff_eq,
      Text.precedes_iff_lt, keyLe_iff_not_lt]
    rcases lt_trichotomy a b with hlt | rfl | hgt
    · simp [hlt, hlt.ne', hlt.not_gt]
    · simp
    · simp [hgt, hgt.ne', hgt.not_gt]

theorem le_iff {a b : Path} : le a b = true ↔ a.key ≤ b.key := by
  rw [le, keyLe_iff_not_lt, not_lt]

theorem mem_sorted {paths : List Path} {p : Path} : p ∈ sorted paths ↔ p ∈ paths := by
  rw [sorted, List.mem_eraseDups, List.mem_mergeSort]

theorem eraseDups_sublist (paths : List Path) : paths.eraseDups.Sublist paths := by
  match paths with
  | [] => exact List.Sublist.refl []
  | p :: rest =>
    rw [List.eraseDups_cons]
    exact .cons_cons p ((eraseDups_sublist _).trans List.filter_sublist)
termination_by paths.length
decreasing_by exact Nat.lt_succ_of_le (List.length_filter_le _ _)

theorem nodup_eraseDups (paths : List Path) : paths.eraseDups.Nodup := by
  match paths with
  | [] => exact List.nodup_nil
  | p :: rest =>
    rw [List.eraseDups_cons, List.nodup_cons, List.mem_eraseDups]
    exact ⟨by simp, nodup_eraseDups _⟩
termination_by paths.length
decreasing_by exact Nat.lt_succ_of_le (List.length_filter_le _ _)

theorem nodup_sorted (paths : List Path) : (sorted paths).Nodup := nodup_eraseDups _

theorem pairwise_sorted (paths : List Path) :
    (sorted paths).Pairwise fun a b => a.key ≤ b.key := by
  refine List.Pairwise.sublist (eraseDups_sublist _) ?_
  have htrans : ∀ a b c, le a b = true → le b c = true → le a c = true := fun a b c hab hbc =>
    le_iff.mpr ((le_iff.mp hab).trans (le_iff.mp hbc))
  have htotal : ∀ a b, (le a b || le b a) = true := by
    intro a b
    rw [Bool.or_eq_true, le_iff, le_iff]
    exact le_total a.key b.key
  exact (List.pairwise_mergeSort htrans htotal paths).imp le_iff.mp

theorem eq_of_key_eq {a b : Path} (ha : a.anchor = .root) (hb : b.anchor = .root)
    (h : a.key = b.key) : a = b := by
  obtain ⟨_, parts⟩ := a
  obtain ⟨_, parts'⟩ := b
  subst ha
  subst hb
  obtain rfl : parts = parts' := List.cons.inj h |>.2
  rfl

/-- **A list of paths in order is known from its members**, if they are seen from the root. -/
theorem sorted_congr {a b : List Path} (ha : ∀ p ∈ a, p.anchor = .root)
    (hmem : ∀ p, p ∈ a ↔ p ∈ b) : sorted a = sorted b := by
  have hperm : (sorted a).Perm (sorted b) := by
    rw [List.perm_ext_iff_of_nodup (nodup_sorted a) (nodup_sorted b)]
    intro p
    rw [mem_sorted, mem_sorted, hmem]
  refine hperm.eq_of_pairwise (fun p q hp hq hpq hqp => ?_) (pairwise_sorted a) (pairwise_sorted b)
  have hpa := ha p (mem_sorted.mp hp)
  have hqa := ha q ((hmem q).mpr (mem_sorted.mp hq))
  exact eq_of_key_eq hpa hqa (le_antisymm hpq hqp)

end Path

namespace Project

/-! ## 2. What a search finds -/

theorem resolved_eq_ok_iff {cwd p q : Path} :
    resolved cwd p = .ok q ↔ p.holdsNul = false ∧ q = Path.resolve cwd p := by
  unfold resolved Path.resolve?
  cases p.holdsNul with
  | true => simp
  | false => simp [eq_comm]

namespace Search

variable {d : Disk} {cwd root : Path} {generated : Path} {s : Search} {p base : Path}
  {scanning : Path → Option Disk.Fault}

theorem mem_filesUnder (htree : d.IsTree) {l k : Location} :
    k ∈ d.filesUnder l ↔ (∃ bytes, d.entry? k = some (.file bytes)) ∧ l <+: k ∧ l ≠ k := by
  have hbelow : (l.isPrefixOf k && decide (l.length < k.length)) = true ↔ l <+: k ∧ l ≠ k := by
    rw [Bool.and_eq_true, List.isPrefixOf_iff_prefix, decide_eq_true_iff]
    constructor
    · rintro ⟨hle, hlt⟩
      refine ⟨hle, ?_⟩
      rintro rfl
      omega
    · rintro ⟨hle, hne⟩
      refine ⟨hle, lt_of_le_of_ne hle.length_le fun hlen => hne (hle.eq_of_length hlen)⟩
  unfold Disk.filesUnder
  rw [List.mem_filterMap]
  constructor
  · rintro ⟨⟨k', e⟩, hmem, hk⟩
    cases e with
    | directory => cases hk
    | file bytes =>
      dsimp only at hk
      split at hk
      · rename_i hunder
        cases hk
        exact ⟨⟨bytes, (htree.mem_entries_iff.mp hmem).2⟩, hbelow.mp hunder⟩
      · cases hk
  · rintro ⟨⟨bytes, he⟩, hunder⟩
    have hne : k ≠ [] := by
      rintro rfl
      cases he
    refine ⟨(k, .file bytes), htree.mem_entries_iff.mpr ⟨hne, he⟩, ?_⟩
    dsimp only
    rw [if_pos (hbelow.mpr hunder)]

/-- The file is one that the search accepts under a source root. -/
def accepts (s : Search) (root : Option Path) (generated base file : Path) : Bool :=
  isCandidate s.suffix file.name && file.isSource s.suffix (some generated) &&
    !Glob.excludes s.exclude (relative root base file)

theorem accepts_iff {root : Option Path} : s.accepts root generated base p = true ↔
    isCandidate s.suffix p.name = true ∧ p.isSource s.suffix (some generated) = true ∧
      Glob.excludes s.exclude (relative root base p) = false := by
  rw [accepts, Bool.and_eq_true, Bool.and_eq_true, Bool.not_eq_true', and_assoc]

theorem mem_under (htree : d.IsTree) {root : Option Path} :
    p ∈ under d root generated base s ↔ p.anchor = .root ∧
      (∃ bytes, d.entry? p.parts = some (.file bytes)) ∧ base.parts <+: p.parts ∧
      base.parts ≠ p.parts ∧ s.accepts root generated base p = true := by
  unfold under accepts
  rw [List.mem_filter, List.mem_map]
  constructor
  · rintro ⟨⟨k, hk, rfl⟩, haccepts⟩
    obtain ⟨hfile, hle, hne⟩ := (mem_filesUnder htree).mp hk
    exact ⟨rfl, hfile, hle, hne, haccepts⟩
  · rintro ⟨hanchor, hfile, hle, hne, haccepts⟩
    refine ⟨⟨p.parts, (mem_filesUnder htree).mpr ⟨hfile, hle, hne⟩, ?_⟩, haccepts⟩
    rw [← hanchor]

/-- One step of the search: a source root at which nothing is, is passed over, and a directory is
searched. -/
theorem underEach_cons_eq_ok_iff {t : Text} {rest : List Text} {files : List Path} :
    s.underEach d cwd root generated scanning (t :: rest) = .ok files ↔
      (root.child t).holdsNul = false ∧
      ∃ others, s.underEach d cwd root generated scanning rest = .ok others ∧
        (d.look cwd (Path.resolve cwd (root.child t)) = .ok none ∧ files = others ∨
          d.look cwd (Path.resolve cwd (root.child t)) = .ok (some .directory) ∧
            isSearchable s.suffix = true ∧ scanning (Path.resolve cwd (root.child t)) = none ∧
            files = under d (Path.resolve? cwd root) generated
              (Path.resolve cwd (root.child t)) s ++ others) := by
  rw [underEach]
  cases hbase : resolved cwd (root.child t) with
  | error f =>
    refine ⟨nofun, fun ⟨hnul, _⟩ => ?_⟩
    rw [resolved_eq_ok_iff.mpr ⟨hnul, rfl⟩] at hbase
    cases hbase
  | ok base =>
    obtain ⟨hnul, rfl⟩ := resolved_eq_ok_iff.mp hbase
    dsimp only
    cases d.look cwd (Path.resolve cwd (root.child t)) with
    | error f => simp
    | ok found =>
      cases found with
      | none => simp [hnul]
      | some e =>
        cases e with
        | file bytes => simp
        | directory =>
          by_cases hsearchable : isSearchable s.suffix = true
          · rw [if_pos hsearchable]
            cases scanning (Path.resolve cwd (root.child t)) with
            | some f => simp
            | none =>
              cases s.underEach d cwd root generated scanning rest with
              | error f => simp
              | ok others => simp [hnul, hsearchable, eq_comm (a := files)]
          · simp [hsearchable]

theorem mem_underEach : ∀ {sourceRoots : List Text} {files : List Path},
    s.underEach d cwd root generated scanning sourceRoots = .ok files →
    (p ∈ files ↔ ∃ t ∈ sourceRoots,
      d.look cwd (Path.resolve cwd (root.child t)) = .ok (some .directory) ∧
      p ∈ under d (Path.resolve? cwd root) generated (Path.resolve cwd (root.child t)) s)
  | [], files, h => by
    cases h
    simp
  | t :: rest, files, h => by
    obtain ⟨-, others, hothers, ⟨hlook, rfl⟩ | ⟨hlook, -, -, rfl⟩⟩ := underEach_cons_eq_ok_iff.mp h
    · simp [mem_underEach hothers, hlook]
    · simp [mem_underEach hothers, hlook]

end Search

variable {d d' : Disk} {cwd root : Path} {s : Search} {scanning : Path → Option Disk.Fault}
  {files : List Path} {p : Path}

theorem sources_eq_ok (h : sources d cwd root s scanning = .ok files) :
    ∃ found, s.underEach d cwd root (Path.resolve cwd (root.child s.generatedDir)) scanning
      s.sourceRoots = .ok found ∧ (root.child s.generatedDir).holdsNul = false ∧
      files = Path.sorted found := by
  unfold sources at h
  cases hgenerated : resolved cwd (root.child s.generatedDir) with
  | error f =>
    rw [hgenerated] at h
    cases h
  | ok generated =>
    rw [hgenerated] at h
    obtain ⟨hnul, rfl⟩ := resolved_eq_ok_iff.mp hgenerated
    dsimp only at h
    split at h
    · cases h
    · rename_i found hfound
      cases h
      exact ⟨found, hfound, hnul, rfl⟩

theorem sources_of_underEach {found : List Path}
    (hnul : (root.child s.generatedDir).holdsNul = false)
    (h : s.underEach d cwd root (Path.resolve cwd (root.child s.generatedDir)) scanning
      s.sourceRoots = .ok found) : sources d cwd root s scanning = .ok (Path.sorted found) := by
  rw [sources, resolved_eq_ok_iff.mpr ⟨hnul, rfl⟩]
  dsimp only
  rw [h]

/-- **The sources are the files under the source roots that the search accepts.** -/
theorem mem_sources_iff (htree : d.IsTree) (h : sources d cwd root s scanning = .ok files) :
    p ∈ files ↔ p.anchor = .root ∧ (∃ bytes, d.entry? p.parts = some (.file bytes)) ∧
      ∃ t ∈ s.sourceRoots,
        d.look cwd (Path.resolve cwd (root.child t)) = .ok (some .directory) ∧
        Path.resolvedParts cwd (root.child t) <+: p.parts ∧
        Path.resolvedParts cwd (root.child t) ≠ p.parts ∧
        s.accepts (Path.resolve? cwd root) (Path.resolve cwd (root.child s.generatedDir))
          (Path.resolve cwd (root.child t)) p = true := by
  obtain ⟨found, hfound, -, rfl⟩ := sources_eq_ok h
  rw [Path.mem_sorted, Search.mem_underEach hfound]
  constructor
  · rintro ⟨t, ht, hlook, hp⟩
    obtain ⟨hanchor, hfile, hle, hne, haccepts⟩ := (Search.mem_under htree).mp hp
    exact ⟨hanchor, hfile, t, ht, hlook, hle, hne, haccepts⟩
  · rintro ⟨hanchor, hfile, t, ht, hlook, hle, hne, haccepts⟩
    exact ⟨t, ht, hlook, (Search.mem_under htree).mpr ⟨hanchor, hfile, hle, hne, haccepts⟩⟩

/-! ## 3. Elsewhere than in the generated directory -/

/-- The path of a file elsewhere: it is seen from the root and does not lead to, or under, a
location. -/
structure IsElsewhere (g : Location) (p : Path) : Prop where
  anchor : p.anchor = .root
  resolved : p.IsResolved
  outside : ¬g <+: p.parts

namespace IsElsewhere

variable {g : Location}

theorem find (h : IsElsewhere g p) (hsame : ∀ k, ¬g <+: k → d'.entry? k = d.entry? k) (cwd : Path) :
    d'.find cwd p = d.find cwd p := by
  obtain ⟨anchor, parts⟩ := p
  obtain rfl : anchor = .root := h.anchor
  exact Disk.find_congr h.resolved h.outside hsame

theorem readText (h : IsElsewhere g p) (hsame : ∀ k, ¬g <+: k → d'.entry? k = d.entry? k)
    (cwd : Path) : d'.readText cwd p = d.readText cwd p := by
  rw [Disk.readText, Disk.readText, Disk.readBytes, Disk.readBytes, h.find hsame]

theorem look (h : IsElsewhere g p) (hsame : ∀ k, ¬g <+: k → d'.entry? k = d.entry? k) (cwd : Path) :
    d'.look cwd p = d.look cwd p := by
  rw [Disk.look, Disk.look, h.find hsame]

end IsElsewhere

theorem not_under_of_accepts {root : Option Path} {cwd q base : Path} (hanchor : p.anchor = .root)
    (h : s.accepts root (Path.resolve cwd q) base p = true) :
    ¬Path.resolvedParts cwd q <+: p.parts := by
  intro hle
  have hsource := (Search.accepts_iff.mp h).2.1
  rw [Path.isSource, (Path.isUnder_resolve_iff hanchor).mpr hle] at hsource
  simp at hsource

/-- **No source lies in the generated directory.** -/
theorem isElsewhere_of_mem_sources (htree : d.IsTree)
    (h : sources d cwd root s scanning = .ok files)
    (hp : p ∈ files) : IsElsewhere (Path.resolvedParts cwd (root.child s.generatedDir)) p := by
  obtain ⟨hanchor, ⟨bytes, hfile⟩, t, -, -, -, -, haccepts⟩ := (mem_sources_iff htree h).mp hp
  exact ⟨hanchor, htree.isResolved_of_found hfile, not_under_of_accepts hanchor haccepts⟩

theorem Search.underEach_of_same {g : Location} {generated : Path}
    (hsame : ∀ k, ¬g <+: k → d'.entry? k = d.entry? k) :
    ∀ {sourceRoots : List Text} {found : List Path},
      (∀ t ∈ sourceRoots, IsElsewhere g (Path.resolve cwd (root.child t))) →
      s.underEach d cwd root generated scanning sourceRoots = .ok found →
      ∃ found', s.underEach d' cwd root generated scanning sourceRoots = .ok found'
  | [], _, _, _ => ⟨[], rfl⟩
  | t :: rest, found, hroots, h => by
    have hrest : ∀ t' ∈ rest, IsElsewhere g (Path.resolve cwd (root.child t')) :=
      fun t' ht' => hroots t' (List.mem_cons_of_mem t ht')
    obtain ⟨hnul, others, hothers, hlook⟩ := underEach_cons_eq_ok_iff.mp h
    obtain ⟨others', hothers'⟩ := underEach_of_same hsame hrest hothers
    have hsame' := (hroots t List.mem_cons_self).look hsame cwd
    rcases hlook with ⟨hlook, -⟩ | ⟨hlook, hsearchable, hscan, -⟩
    · exact ⟨others', underEach_cons_eq_ok_iff.mpr
        ⟨hnul, others', hothers', Or.inl ⟨hsame'.trans hlook, rfl⟩⟩⟩
    · exact ⟨_, underEach_cons_eq_ok_iff.mpr
        ⟨hnul, others', hothers', Or.inr ⟨hsame'.trans hlook, hsearchable, hscan, rfl⟩⟩⟩

/-- **What is in the generated directory has no part in which files are sources.** -/
theorem sources_congr (hcwd : cwd.IsResolved) (htree : d.IsTree) (htree' : d'.IsTree)
    (hsame : ∀ k, ¬Path.resolvedParts cwd (root.child s.generatedDir) <+: k →
      d'.entry? k = d.entry? k)
    (hroots : ∀ t ∈ s.sourceRoots, ¬Path.resolvedParts cwd (root.child s.generatedDir) <+:
      Path.resolvedParts cwd (root.child t))
    (h : sources d cwd root s scanning = .ok files) :
    sources d' cwd root s scanning = .ok files := by
  have helsewhere : ∀ t ∈ s.sourceRoots, IsElsewhere
      (Path.resolvedParts cwd (root.child s.generatedDir)) (Path.resolve cwd (root.child t)) :=
    fun t ht => ⟨rfl, Path.isProper_resolvedParts hcwd _, hroots t ht⟩
  obtain ⟨found, hfound, hnul, rfl⟩ := sources_eq_ok h
  obtain ⟨found', hfound'⟩ := Search.underEach_of_same hsame helsewhere hfound
  have hsources' := sources_of_underEach hnul hfound'
  rw [hsources']
  congr 1
  refine Path.sorted_congr (fun p hp => ?_) fun p => ?_
  · exact ((mem_sources_iff htree' hsources').mp (Path.mem_sorted.mpr hp)).1
  · have hmem' := mem_sources_iff (p := p) htree' hsources'
    have hmem := mem_sources_iff (p := p) htree h
    rw [Path.mem_sorted] at hmem hmem'
    rw [hmem, hmem']
    refine and_congr_right fun hanchor => ⟨?_, ?_⟩
    · rintro ⟨⟨bytes, hfile⟩, t, ht, hlook, hle, hne, haccepts⟩
      rw [hsame _ (not_under_of_accepts hanchor haccepts)] at hfile
      rw [(helsewhere t ht).look hsame] at hlook
      exact ⟨⟨bytes, hfile⟩, t, ht, hlook, hle, hne, haccepts⟩
    · rintro ⟨⟨bytes, hfile⟩, t, ht, hlook, hle, hne, haccepts⟩
      rw [← hsame _ (not_under_of_accepts hanchor haccepts)] at hfile
      rw [← (helsewhere t ht).look hsame] at hlook
      exact ⟨⟨bytes, hfile⟩, t, ht, hlook, hle, hne, haccepts⟩

end Project

end InlineMarkup
