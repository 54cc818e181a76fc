import InlineMarkup.Project.Root
import InlineMarkup.Settings.Override
import InlineMarkup.Proofs.MarkCount

/-!
# The names that settings accept hold no `<`

That calls have fewer `<` than their markup rests on the names used in calls.  A name comes from
the defaults, from a configuration file or from what is given for a run; the last two are
checked, and no character that passes the check is a `<`.
-/

namespace InlineMarkup

/-! ## 1. Dotted names -/

theorem Text.isIdentifierPart_of_mem {t : Text} (h : isIdentifier t = true) :
    ∀ c ∈ t, isIdentifierStart c = true ∨ isIdentifierPart c = true := by
  intro c hc
  cases t with
  | nil => exact absurd hc List.not_mem_nil
  | cons d rest =>
    rw [isIdentifier, Bool.and_eq_true, List.all_eq_true] at h
    rcases List.mem_cons.mp hc with rfl | hc
    · exact Or.inl h.1
    · exact Or.inr (h.2 c hc)

theorem Text.lt_notMem_of_isDottedName {t : Text} (h : isDottedName t = true) : '<' ∉ t := by
  intro hmem
  -- only a dot is read as another character, so the mark is one of the identifier too
  have hin : '<' ∈ t.map fun c => if c == '.' then '_' else c :=
    List.mem_map.mpr ⟨'<', hmem, by decide⟩
  rcases isIdentifierPart_of_mem h '<' hin with hc | hc
  · exact absurd hc (by decide)
  · exact absurd hc (by decide)

namespace Settings

theorem lt_notMem_of_checkIdentifier {name t u : Text} (h : checkIdentifier name t = .ok u) :
    '<' ∉ u := by
  unfold checkIdentifier at h
  split at h
  · rename_i hdotted
    rw [← Except.ok.inj h]
    exact Text.lt_notMem_of_isDottedName hdotted
  · cases h

/-! ## 2. The table of a configuration file -/

theorem lt_notMem_of_setting {sectionName key default t : Text} {table : Toml.Table}
    (h : setting sectionName table readIdentifier key default = .ok t) (hd : '<' ∉ default) :
    '<' ∉ t := by
  unfold setting at h
  split at h
  · rw [← Except.ok.inj h]
    exact hd
  · obtain ⟨u, -, hcheck⟩ := bind_eq_ok.mp h
    exact lt_notMem_of_checkIdentifier hcheck

theorem eq_of_check {s s' : Settings} (h : check s = .ok s') : s' = s := by
  unfold check at h
  repeat (split at h; · cases h)
  exact (Except.ok.inj h).symm

theorem unmarked_of_ofTable {document : Toml.Table} {s : Settings}
    (h : ofTable document = .ok s) : s.names.Unmarked := by
  unfold ofTable at h
  obtain ⟨version, -, h⟩ := bind_eq_ok.mp h
  obtain ⟨paths, -, h⟩ := bind_eq_ok.mp h
  obtain ⟨codegen, -, h⟩ := bind_eq_ok.mp h
  obtain ⟨watch, -, h⟩ := bind_eq_ok.mp h
  obtain ⟨io, -, h⟩ := bind_eq_ok.mp h
  obtain ⟨sourceRoots, -, h⟩ := bind_eq_ok.mp h
  obtain ⟨generatedDir, -, h⟩ := bind_eq_ok.mp h
  obtain ⟨sourceSuffix, -, h⟩ := bind_eq_ok.mp h
  obtain ⟨outputSuffix, -, h⟩ := bind_eq_ok.mp h
  obtain ⟨exclude, -, h⟩ := bind_eq_ok.mp h
  obtain ⟨factory, hfactory, h⟩ := bind_eq_ok.mp h
  obtain ⟨createElement, helement, h⟩ := bind_eq_ok.mp h
  obtain ⟨createText, htext, h⟩ := bind_eq_ok.mp h
  obtain ⟨wrapText, -, h⟩ := bind_eq_ok.mp h
  obtain ⟨debounceMs, -, h⟩ := bind_eq_ok.mp h
  obtain ⟨retries, -, h⟩ := bind_eq_ok.mp h
  obtain ⟨retryDelayMs, -, h⟩ := bind_eq_ok.mp h
  rw [eq_of_check h]
  exact ⟨lt_notMem_of_setting hfactory (by decide), lt_notMem_of_setting helement (by decide),
    lt_notMem_of_setting htext (by decide)⟩

/-! ## 3. Names given for a run -/

theorem lt_notMem_of_overrideName {option setting t : Text} {given : Option Given}
    (h : overrideName option given setting = .ok t) (hs : '<' ∉ setting) : '<' ∉ t := by
  unfold overrideName at h
  split at h
  · rw [← Except.ok.inj h]
    exact hs
  · exact lt_notMem_of_checkIdentifier h
  · cases h

/-- What is given for a run brings in no `<`. -/
theorem unmarked_of_override {names names' : Names} {o : Overrides} (hnames : names.Unmarked)
    (h : override names o = .ok names') : names'.Unmarked := by
  unfold override at h
  obtain ⟨factory, hfactory, h⟩ := bind_eq_ok.mp h
  obtain ⟨createElement, helement, h⟩ := bind_eq_ok.mp h
  obtain ⟨createText, htext, h⟩ := bind_eq_ok.mp h
  rw [← Except.ok.inj h]
  exact ⟨lt_notMem_of_overrideName hfactory hnames.factory,
    lt_notMem_of_overrideName helement hnames.createElement,
    lt_notMem_of_overrideName htext hnames.createText⟩

end Settings

/-! ## 4. The settings of a project -/

namespace Project

theorem ofTable_of_settingsFrom {table : Toml.Table} {s : Settings}
    (h : settingsFrom table = .ok s) : Settings.ofTable table = .ok s := by
  unfold settingsFrom at h
  cases htable : Settings.ofTable table with
  | error f => rw [htable] at h; cases h
  | ok s' =>
    rw [htable] at h
    rw [← Except.ok.inj h]

theorem ofTable_of_settingsOf {d : Disk} {cwd root : Path} {s : Settings}
    (h : settingsOf d cwd root = .ok s) : ∃ table, Settings.ofTable table = .ok s := by
  obtain ⟨config, -, h⟩ := bind_eq_ok.mp h
  cases config with
  | none => exact ⟨[], ofTable_of_settingsFrom h⟩
  | some table => exact ⟨table, ofTable_of_settingsFrom h⟩

/-- Wherever the settings of a project are found, they are those of a table. -/
theorem ofTable_of_loadSettings {d : Disk} {cwd : Path} {root file : Option Path} {s : Settings}
    (h : loadSettings d cwd root file = .ok s) : ∃ table, Settings.ofTable table = .ok s := by
  unfold loadSettings at h
  split at h
  · obtain ⟨config, -, h⟩ := bind_eq_ok.mp h
    cases config with
    | none => cases h
    | some table => exact ⟨table, ofTable_of_settingsFrom h⟩
  · exact ofTable_of_settingsOf h
  · split at h
    · cases h
    · exact ofTable_of_settingsOf h

/-- **The names in the settings of a project hold no `<`**, wherever the settings are found. -/
theorem unmarked_of_loadSettings {d : Disk} {cwd : Path} {root file : Option Path} {s : Settings}
    (h : loadSettings d cwd root file = .ok s) : s.names.Unmarked := by
  obtain ⟨table, htable⟩ := ofTable_of_loadSettings h
  exact Settings.unmarked_of_ofTable htable

/-- The settings of a project fit together. -/
theorem check_of_loadSettings {d : Disk} {cwd : Path} {root file : Option Path} {s : Settings}
    (h : loadSettings d cwd root file = .ok s) : s.check = .ok s := by
  obtain ⟨table, h⟩ := ofTable_of_loadSettings h
  unfold Settings.ofTable at h
  -- what is read comes before the check, one setting after the other
  repeat obtain ⟨_, -, h⟩ := bind_eq_ok.mp h
  rwa [← Settings.eq_of_check h] at h

end Project

end InlineMarkup
