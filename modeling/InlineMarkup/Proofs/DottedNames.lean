import InlineMarkup.Proofs.AcceptedNames
import InlineMarkup.Proofs.Resolving

/-!
# Which names settings accept

The names used in calls are meant to be dotted identifiers: identifiers joined by single dots
(`Text.IsDottedIdentifier`).  The check reads every dot as an underscore, and so it cannot tell
where a part starts: it lets parts be empty, and parts after the first start with a digit
(`Text.IsLooselyDotted`, `Text.isDottedName_iff`).

Nothing else in the settings depends on a name.  A document that gives a name comes to what the rest
of it comes to, with the name in its place, or to the fault of that name (`hinges_ofTable`); the
same holds of what is given for a run (`hinges_override`).  To say so, the three names are taken as
one thing with a parameter (`NameSetting`), and so is the part of a computation that reads them
(`namesFrom`).
-/

namespace InlineMarkup

namespace Text

/-! ## 1. Pieces between dots -/

theorem joinWith_cons_char (separator : Text) (c : Char) (t : Text) (ts : List Text) :
    joinWith separator ((c :: t) :: ts) = c :: joinWith separator (t :: ts) := by
  cases ts <;> rfl

theorem exists_splitAt (separator : Char) (t : Text) :
    ∃ piece pieces, splitAt separator t = piece :: pieces := by
  have hnil : separator ∉ ([] : Text) := List.not_mem_nil
  obtain ⟨piece, pieces, hsplit, -⟩ := splitAt_append hnil t
  exact ⟨piece, pieces, hsplit⟩

/-- The pieces of a text, joined again, are the text. -/
theorem joinWith_splitAt (separator : Char) : ∀ t : Text,
    joinWith [separator] (splitAt separator t) = t
  | [] => rfl
  | c :: t => by
    have ih := joinWith_splitAt separator t
    obtain ⟨piece, pieces, hsplit⟩ := exists_splitAt separator t
    rw [hsplit] at ih
    by_cases hc : c = separator
    · rw [splitAt, if_pos hc, hsplit, joinWith_cons_cons, ih, hc]
      rfl
    · rw [splitAt, if_neg hc, hsplit]
      exact (joinWith_cons_char ..).trans (congrArg (c :: ·) ih)

/-- Texts without the separator are the pieces of what they join to. -/
theorem splitAt_joinWith {separator : Char} : ∀ {parts : List Text}, parts ≠ [] →
    (∀ part ∈ parts, separator ∉ part) → splitAt separator (joinWith [separator] parts) = parts
  | [], hne, _ => absurd rfl hne
  | [part], _, h => splitAt_of_notMem (h part List.mem_cons_self)
  | part :: part' :: parts, _, h => by
    have ih := splitAt_joinWith (List.cons_ne_nil part' parts) fun p hp =>
      h p (List.mem_cons_of_mem part hp)
    obtain ⟨piece, pieces, hrest, hsplit⟩ := splitAt_append (h part List.mem_cons_self)
      (separator :: joinWith [separator] (part' :: parts))
    rw [splitAt, if_pos rfl, ih, List.cons.injEq] at hrest
    obtain ⟨rfl, rfl⟩ := hrest
    rw [joinWith_cons_cons, List.singleton_append, hsplit, List.append_nil]

theorem mem_joinWith {separator : Text} {c : Char} : ∀ {ts : List Text},
    c ∈ joinWith separator ts → c ∈ separator ∨ ∃ t ∈ ts, c ∈ t
  | [t], h => Or.inr ⟨t, List.mem_singleton_self t, h⟩
  | t :: t' :: ts, h => by
    rw [joinWith_cons_cons, List.mem_append, List.mem_append] at h
    rcases h with h | h | h
    · exact Or.inr ⟨t, List.mem_cons_self, h⟩
    · exact Or.inl h
    · rcases mem_joinWith h with h | ⟨u, hu, h⟩
      · exact Or.inl h
      · exact Or.inr ⟨u, List.mem_cons_of_mem t hu, h⟩

/-! ## 2. Dotted identifiers, and what passes for one -/

/-- The text is one or more identifiers, joined by single dots. -/
def IsDottedIdentifier (t : Text) : Prop :=
  ∃ parts, parts ≠ [] ∧ (∀ part ∈ parts, isIdentifier part = true) ∧ t = joinWith "." parts

/-- The text is not empty, and it is joined by single dots from a part that is empty or an
identifier, and from further parts that hold nothing but characters an identifier may go on with. -/
def IsLooselyDotted (t : Text) : Prop :=
  t ≠ [] ∧ ∃ first others, t = joinWith "." (first :: others) ∧
    (first = [] ∨ isIdentifier first = true) ∧
    ∀ part ∈ others, ∀ c ∈ part, isIdentifierPart c = true

theorem isIdentifierPart_of_isIdentifierStart {c : Char} (h : isIdentifierStart c = true) :
    isIdentifierPart c = true := by
  unfold isIdentifierPart
  split
  · rename_i hlow
    rw [isIdentifierStart, if_pos hlow, Bool.or_eq_true] at h
    rcases h with h | h
    · simp [Char.isAlphanum, h]
    · simp [h]
  · rw [h, Bool.true_or]

theorem isIdentifierPart_of_isIdentifier {t : Text} (h : isIdentifier t = true) :
    ∀ c ∈ t, isIdentifierPart c = true := by
  intro c hc
  rcases isIdentifierPart_of_mem h c hc with hc | hc
  · exact isIdentifierPart_of_isIdentifierStart hc
  · exact hc

/-- No identifier holds a dot, so the parts of a dotted identifier are its pieces. -/
theorem isDottedIdentifier_iff {t : Text} :
    IsDottedIdentifier t ↔ ∀ piece ∈ splitAt '.' t, isIdentifier piece = true := by
  constructor
  · rintro ⟨parts, hne, hparts, rfl⟩
    have hdots : ∀ part ∈ parts, '.' ∉ part := fun part hpart hdot =>
      absurd (isIdentifierPart_of_isIdentifier (hparts part hpart) '.' hdot) (by decide)
    change ∀ piece ∈ splitAt '.' (joinWith ['.'] parts), _
    rw [splitAt_joinWith hne hdots]
    exact hparts
  · intro h
    obtain ⟨piece, pieces, hsplit⟩ := exists_splitAt '.' t
    exact ⟨splitAt '.' t, by rw [hsplit]; exact List.cons_ne_nil _ _, h,
      (joinWith_splitAt '.' t).symm⟩

instance (t : Text) : Decidable (IsDottedIdentifier t) :=
  decidable_of_iff _ isDottedIdentifier_iff.symm

/-- What the check sees of a text: a dot may stand wherever an underscore may. -/
theorem isDottedName_cons_iff {c : Char} {t : Text} : isDottedName (c :: t) = true ↔
    (c = '.' ∨ isIdentifierStart c = true) ∧ ∀ d ∈ t, d = '.' ∨ isIdentifierPart d = true := by
  have hread : ∀ (p : Char → Bool), p '_' = true → ∀ d : Char,
      p (if d == '.' then '_' else d) = true ↔ d = '.' ∨ p d = true := by
    intro p hp d
    by_cases hd : d = '.'
    · simp [hd, hp]
    · simp [hd]
  rw [isDottedName, List.map_cons, isIdentifier, Bool.and_eq_true, List.all_map, List.all_eq_true,
    hread isIdentifierStart (by decide)]
  simp only [Function.comp_apply, hread isIdentifierPart (by decide)]

/-- Between the dots of a text that passes the check there are characters an identifier may go on
with. -/
theorem isIdentifierPart_of_mem_splitAt {t piece : Text} (h : isDottedName t = true)
    (hpiece : piece ∈ splitAt '.' t) : ∀ d ∈ piece, isIdentifierPart d = true := by
  intro d hd
  have hdot : d ≠ '.' := by
    rintro rfl
    exact notMem_of_mem_splitAt hpiece hd
  have hmem := mem_of_mem_splitAt hpiece hd
  cases t with
  | nil => exact absurd hmem List.not_mem_nil
  | cons c t =>
    obtain ⟨hc, ht⟩ := isDottedName_cons_iff.mp h
    rcases List.mem_cons.mp hmem with rfl | hmem
    · exact isIdentifierPart_of_isIdentifierStart (hc.resolve_left hdot)
    · exact (ht d hmem).resolve_left hdot

theorem isLooselyDotted_of_isDottedName {c : Char} {t : Text} (h : isDottedName (c :: t) = true) :
    IsLooselyDotted (c :: t) := by
  have hchars : ∀ piece ∈ splitAt '.' (c :: t), ∀ d ∈ piece, isIdentifierPart d = true :=
    fun piece hpiece => isIdentifierPart_of_mem_splitAt h hpiece
  have hjoined := joinWith_splitAt '.' (c :: t)
  obtain ⟨first, others, hsplit⟩ := exists_splitAt '.' (c :: t)
  rw [hsplit] at hchars hjoined
  refine ⟨List.cons_ne_nil c t, first, others, hjoined.symm, ?_, fun part hpart =>
    hchars part (List.mem_cons_of_mem first hpart)⟩
  cases first with
  | nil => exact Or.inl rfl
  | cons d first =>
    -- the first piece starts where the text starts
    rw [joinWith_cons_char, List.cons.injEq] at hjoined
    obtain ⟨rfl, -⟩ := hjoined
    have hdot : d ≠ '.' := by
      rintro rfl
      exact notMem_of_mem_splitAt (hsplit ▸ List.mem_cons_self) List.mem_cons_self
    refine Or.inr ?_
    rw [isIdentifier, (isDottedName_cons_iff.mp h).1.resolve_left hdot, Bool.true_and,
      List.all_eq_true]
    exact fun x hx => hchars _ List.mem_cons_self x (List.mem_cons_of_mem d hx)

theorem isDottedName_of_isLooselyDotted {c : Char} {t : Text} (h : IsLooselyDotted (c :: t)) :
    isDottedName (c :: t) = true := by
  obtain ⟨-, first, others, hjoined, hfirst, hothers⟩ := h
  have hchars : ∀ d ∈ c :: t, d = '.' ∨ isIdentifierPart d = true := by
    intro d hd
    rw [hjoined] at hd
    rcases mem_joinWith hd with hdot | ⟨part, hpart, hmem⟩
    · exact Or.inl (List.mem_singleton.mp hdot)
    · rcases List.mem_cons.mp hpart with rfl | hpart
      · rcases hfirst with rfl | hfirst
        · exact absurd hmem List.not_mem_nil
        · exact Or.inr (isIdentifierPart_of_isIdentifier hfirst d hmem)
      · exact Or.inr (hothers part hpart d hmem)
  refine isDottedName_cons_iff.mpr ⟨?_, fun d hd => hchars d (List.mem_cons_of_mem c hd)⟩
  cases first with
  | nil =>
    -- nothing stands before the first dot
    cases others with
    | nil => cases hjoined
    | cons other others => exact Or.inl (List.cons.inj hjoined).1
  | cons d first =>
    rw [joinWith_cons_char, List.cons.injEq] at hjoined
    have hstart := hfirst.resolve_left (List.cons_ne_nil d first)
    rw [isIdentifier, Bool.and_eq_true] at hstart
    exact Or.inr (hjoined.1 ▸ hstart.1)

/-- **The check passes the texts that are loosely dotted.** -/
theorem isDottedName_iff {t : Text} : isDottedName t = true ↔ IsLooselyDotted t := by
  cases t with
  | nil =>
    constructor
    · intro h; cases h
    · rintro ⟨hne, -⟩; exact absurd rfl hne
  | cons c t => exact ⟨isLooselyDotted_of_isDottedName, isDottedName_of_isLooselyDotted⟩

/-- A dotted identifier passes the check. -/
theorem IsDottedIdentifier.isLooselyDotted {t : Text} (h : IsDottedIdentifier t) :
    IsLooselyDotted t := by
  obtain ⟨parts, hne, hparts, rfl⟩ := h
  obtain ⟨first, others, rfl⟩ := List.exists_cons_of_ne_nil hne
  have hfirst := hparts first List.mem_cons_self
  refine ⟨?_, first, others, rfl, Or.inr hfirst, fun part hpart =>
    isIdentifierPart_of_isIdentifier (hparts part (List.mem_cons_of_mem first hpart))⟩
  cases first with
  | nil => cases hfirst
  | cons c first =>
    rw [joinWith_cons_char]
    exact List.cons_ne_nil _ _

end Text

/-! ## 3. Tables -/

namespace Toml.Table

/-- The table without its entries at a key. -/
def erase (key : Text) (t : Table) : Table := t.filter fun e => e.1 != key

theorem get?_erase_self (key : Text) (t : Table) : get? (erase key t) key = none := by
  have hnone : (erase key t).find? (fun e => e.1 == key) = none := by
    refine List.find?_eq_none.mpr fun e he => ?_
    simpa using (List.mem_filter.mp he).2
  rw [get?, hnone]
  rfl

theorem get?_erase_of_ne {key key' : Text} (h : key' ≠ key) (t : Table) :
    get? (erase key t) key' = get? t key' := by
  rw [get?, get?, erase, List.find?_filter]
  refine congrArg (fun p => (t.find? p).map Prod.snd) (funext fun e => ?_)
  by_cases he : e.1 = key'
  · simp [he, h]
  · simp [he]

theorem get?_set_self (key : Text) (value : Value) : ∀ t : Table,
    get? (set key value t) key = some value
  | [] => by simp [set, get?]
  | e :: t => by
    have ih := get?_set_self key value t
    by_cases he : e.1 = key
    · simp [set, get?, he]
    · simpa [set, get?, he] using ih

theorem get?_set_of_ne {key key' : Text} (h : key' ≠ key) (value : Value) : ∀ t : Table,
    get? (set key value t) key' = get? t key'
  | [] => by simp [set, get?, h.symm]
  | e :: t => by
    have ih := get?_set_of_ne h value t
    by_cases he : e.1 = key
    · simp [set, get?, he, h.symm]
    · by_cases he' : e.1 = key'
      · simp [set, get?, he', h]
      · simpa [set, get?, he, he'] using ih

end Toml.Table

/-! ## 4. The three names -/

namespace Settings

/-- One of the names that are used in calls. -/
inductive NameSetting where
  | factory
  | createElement
  | createText
deriving DecidableEq

namespace NameSetting

/-- The key of the name in a configuration file. -/
def key : NameSetting → Text
  | factory => "factory"
  | createElement => "create_element"
  | createText => "create_text"

/-- The option that gives the name for a run. -/
def option : NameSetting → Text
  | factory => "--factory"
  | createElement => "--create-element"
  | createText => "--create-text"

/-- The name. -/
def get (k : NameSetting) (names : Names) : Text :=
  match k with
  | factory => names.factory
  | createElement => names.createElement
  | createText => names.createText

/-- Puts a name in its place. -/
def put (k : NameSetting) (t : Text) (names : Names) : Names :=
  match k with
  | factory => { names with factory := t }
  | createElement => { names with createElement := t }
  | createText => { names with createText := t }

/-- What is given for the name. -/
def given (k : NameSetting) (o : Overrides) : Option Given :=
  match k with
  | factory => o.factory
  | createElement => o.createElement
  | createText => o.createText

/-- What else is given. -/
def withhold (k : NameSetting) (o : Overrides) : Overrides :=
  match k with
  | factory => { o with factory := none }
  | createElement => { o with createElement := none }
  | createText => { o with createText := none }

/-- Puts a name in its place in the settings. -/
def putIn (k : NameSetting) (t : Text) (s : Settings) : Settings :=
  { s with names := k.put t s.names }

/-- What else is in a document, apart from the name in its section. -/
def withoutName (k : NameSetting) (document codegen : Toml.Table) : Toml.Table :=
  document.set "codegen" (.table (codegen.erase k.key))

end NameSetting

/-- Reads the names one after the other, and then whether text is wrapped. -/
def namesFrom (read : NameSetting → Except Fault Text) (wrap : Except Fault Bool) :
    Except Fault Names := do
  let factory ← read .factory
  let createElement ← read .createElement
  let createText ← read .createText
  let wrapText ← wrap
  return { factory, createElement, createText, wrapText }

theorem override_eq (names : Names) (o : Overrides) : override names o =
    namesFrom (fun k => overrideName k.option (k.given o) (k.get names))
      (.ok (o.wrapText.getD names.wrapText)) := rfl

theorem ofTable_eq (document : Toml.Table) : ofTable document = (do
    let d : Settings := {}
    let version ← readVersion document
    let paths ← readSection document "paths"
    let codegen ← readSection document "codegen"
    let watch ← readSection document "watch"
    let io ← readSection document "io"
    let sourceRoots ← setting "paths" paths readTexts "source_roots" d.sourceRoots
    let generatedDir ← setting "paths" paths readText "generated_dir" d.generatedDir
    let sourceSuffix ← setting "paths" paths readText "source_suffix" d.sourceSuffix
    let outputSuffix ← setting "paths" paths readText "output_suffix" d.outputSuffix
    let exclude ← setting "paths" paths readTexts "exclude" d.exclude
    let names ← namesFrom (fun k => setting "codegen" codegen readIdentifier k.key (k.get d.names))
      (setting "codegen" codegen readBoolean "wrap_text" d.names.wrapText)
    let debounceMs ← setting "watch" watch readInteger "debounce_ms" d.debounceMs
    let retries ← setting "io" io readInteger "retries" d.retries
    let retryDelayMs ← setting "io" io readInteger "retry_delay_ms" d.retryDelayMs
    check
      { version, sourceRoots, generatedDir, sourceSuffix, outputSuffix, exclude, names, debounceMs,
        retries, retryDelayMs }) := by
  unfold ofTable namesFrom
  simp only [bind_assoc, pure_bind]
  rfl

/-! ## 5. What hinges on a name -/

/-- `x` is what a computation that is given a name comes to, and `y` what it comes to without the
name.  If the name is accepted the two are alike, but that `x` has the name in its place.  If it is
not, `x` fails, and with the given fault if nothing else is wrong. -/
structure Hinges {ε β : Type} (accepted : Prop) (fault : ε) (put : β → β) (x y : Except ε β) :
    Prop where
  accepts : accepted → x = y.map put
  refuses : ¬accepted → ∀ b, x ≠ .ok b
  faults : ¬accepted → ∀ b, y = .ok b → x = .error fault

section Hinges

variable {ε α β : Type} {accepted : Prop} {fault : ε} {put : β → β}

theorem Hinges.bind {e : Except ε α} {f g : α → Except ε β}
    (h : ∀ a, Hinges accepted fault put (f a) (g a)) :
    Hinges accepted fault put (e >>= f) (e >>= g) := by
  cases e with
  | error fault' =>
    refine ⟨fun _ => rfl, fun _ b hb => ?_, fun _ b hb => ?_⟩
    · cases hb
    · cases hb
  | ok a => exact h a

theorem Hinges.ok_bind {a a' : α} {f g : α → Except ε β}
    (h : Hinges accepted fault put (f a) (g a')) :
    Hinges accepted fault put (.ok a >>= f) (.ok a' >>= g) := h

/-- What follows does not hinge on the name if it only keeps it in its place. -/
theorem Hinges.andThen {put' : α → α} {x y : Except ε α} {f : α → Except ε β}
    (h : Hinges accepted fault put' x y) (hf : ∀ a, f (put' a) = (f a).map put) :
    Hinges accepted fault put (x >>= f) (y >>= f) := by
  refine ⟨fun haccepted => ?_, fun hrefused b hb => ?_, fun hrefused b hb => ?_⟩
  · rw [h.accepts haccepted]
    cases y with
    | error fault' => rfl
    | ok a => exact hf a
  · obtain ⟨a, ha, -⟩ := bind_eq_ok.mp hb
    exact h.refuses hrefused a ha
  · obtain ⟨a, ha, -⟩ := bind_eq_ok.mp hb
    rw [h.faults hrefused a ha]
    rfl

theorem Hinges.mapError {ε' : Type} {x y : Except ε β} (h : Hinges accepted fault put x y)
    (wrap : ε → ε') : Hinges accepted (wrap fault) put (x.mapError wrap) (y.mapError wrap) := by
  refine ⟨fun haccepted => ?_, fun hrefused b hb => ?_, fun hrefused b hb => ?_⟩
  · rw [h.accepts haccepted]
    cases y <;> rfl
  · cases x with
    | error fault' => cases hb
    | ok b' => exact h.refuses hrefused b' rfl
  · cases y with
    | error fault' => cases hb
    | ok b' =>
      rw [h.faults hrefused b' rfl]
      rfl

theorem map_bind_eq {e : Except ε α} {f g : α → Except ε β} (h : ∀ a, f a = (g a).map put) :
    (e >>= f) = (e >>= g).map put := by
  cases e with
  | error fault => rfl
  | ok a => exact h a

end Hinges

theorem hinges_checkIdentifier {β : Type} {t name : Text} {put : β → β} {f : Text → Except Fault β}
    {y : Except Fault β} (h : f t = y.map put) :
    Hinges (Text.IsLooselyDotted t) (.notIdentifier name) put (checkIdentifier name t >>= f) y := by
  unfold checkIdentifier
  by_cases htest : Text.isDottedName t = true
  · have haccepted := Text.isDottedName_iff.mp htest
    rw [if_pos htest]
    exact ⟨fun _ => h, fun hrefused => absurd haccepted hrefused,
      fun hrefused => absurd haccepted hrefused⟩
  · have hrefused : ¬Text.IsLooselyDotted t :=
      fun haccepted => htest (Text.isDottedName_iff.mpr haccepted)
    rw [if_neg htest]
    refine ⟨fun haccepted => absurd haccepted hrefused, fun _ b hb => ?_, fun _ _ _ => rfl⟩
    cases hb

theorem hinges_namesFrom {k : NameSetting} {t name : Text}
    {read read' : NameSetting → Except Fault Text} (default : Text) (wrap : Except Fault Bool)
    (hread : read k = checkIdentifier name t) (hread' : read' k = .ok default)
    (hother : ∀ j, j ≠ k → read j = read' j) :
    Hinges (Text.IsLooselyDotted t) (.notIdentifier name) (k.put t) (namesFrom read wrap)
      (namesFrom read' wrap) := by
  unfold namesFrom
  cases k with
  | factory =>
    rw [hread, hread', hother .createElement (by decide), hother .createText (by decide)]
    exact hinges_checkIdentifier <|
      map_bind_eq fun _ => map_bind_eq fun _ => map_bind_eq fun _ => rfl
  | createElement =>
    rw [hread, hread', hother .factory (by decide), hother .createText (by decide)]
    exact Hinges.bind fun _ => hinges_checkIdentifier <|
      map_bind_eq fun _ => map_bind_eq fun _ => rfl
  | createText =>
    rw [hread, hread', hother .factory (by decide), hother .createElement (by decide)]
    exact Hinges.bind fun _ => Hinges.bind fun _ => hinges_checkIdentifier <|
      map_bind_eq fun _ => rfl

/-- Whether settings fit together does not depend on the names. -/
theorem check_putIn (k : NameSetting) (t : Text) (s : Settings) :
    check (k.putIn t s) = (check s).map (k.putIn t) := by
  unfold check NameSetting.putIn
  dsimp only
  repeat (split; · rfl)
  rfl

theorem hinges_override {k : NameSetting} {o : Overrides} {t : Text} (names : Names)
    (hgiven : k.given o = some (.text t)) :
    Hinges (Text.IsLooselyDotted t) (.notIdentifier k.option) (k.put t) (override names o)
      (override names (k.withhold o)) := by
  have hwrap : (k.withhold o).wrapText = o.wrapText := by cases k <;> rfl
  have hnone : k.given (k.withhold o) = none := by cases k <;> rfl
  have hother : ∀ j, j ≠ k → j.given (k.withhold o) = j.given o := by
    intro j hj
    cases j <;> cases k <;> simp_all [NameSetting.given, NameSetting.withhold]
  rw [override_eq, override_eq, hwrap]
  refine hinges_namesFrom (k.get names) _ ?_ ?_ fun j hj => ?_
  · rw [hgiven]
    rfl
  · rw [hnone]
    rfl
  · rw [hother j hj]

theorem hinges_ofTable {k : NameSetting} {document codegen : Toml.Table} {t : Text}
    (hsection : document.get? "codegen" = some (.table codegen))
    (hname : codegen.get? k.key = some (.string t)) :
    Hinges (Text.IsLooselyDotted t) (.notIdentifier ("codegen." ++ k.key)) (k.putIn t)
      (ofTable document)
      (ofTable (k.withoutName document codegen)) := by
  have hget : ∀ key, key ≠ ("codegen" : Text) →
      (k.withoutName document codegen).get? key = document.get? key :=
    fun key hkey => Toml.Table.get?_set_of_ne hkey _ document
  have hversion : readVersion (k.withoutName document codegen) = readVersion document := by
    rw [readVersion, hget _ (by decide), readVersion]
  have hread : ∀ key, key ≠ ("codegen" : Text) →
      readSection (k.withoutName document codegen) key = readSection document key := by
    intro key hkey
    rw [readSection, hget _ hkey, readSection]
  have hcodegen : readSection document "codegen" = .ok codegen := by rw [readSection, hsection]
  have hcodegen' : readSection (k.withoutName document codegen) "codegen" =
      .ok (codegen.erase k.key) := by
    rw [readSection, NameSetting.withoutName, Toml.Table.get?_set_self]
  have hkeep : ∀ {α : Type} {read : Reader α} {key : Text} {default : α}, key ≠ k.key →
      setting "codegen" (codegen.erase k.key) read key default =
        setting "codegen" codegen read key default := by
    intro α read key default hkey
    rw [setting, setting, Toml.Table.get?_erase_of_ne hkey]
  rw [ofTable_eq, ofTable_eq, hversion, hread "paths" (by decide), hread "watch" (by decide),
    hread "io" (by decide), hcodegen, hcodegen']
  refine Hinges.bind fun version => Hinges.bind fun paths => Hinges.ok_bind ?_
  refine Hinges.bind fun watch => Hinges.bind fun io => Hinges.bind fun sourceRoots => ?_
  refine Hinges.bind fun generatedDir => Hinges.bind fun sourceSuffix => ?_
  refine Hinges.bind fun outputSuffix => Hinges.bind fun exclude => ?_
  rw [hkeep (by cases k <;> decide)]
  refine Hinges.andThen (hinges_namesFrom (k.get {}) _ ?_ ?_ fun j hj => ?_) fun names =>
    map_bind_eq fun debounceMs => map_bind_eq fun retries => map_bind_eq fun retryDelayMs =>
      check_putIn k t ⟨version, sourceRoots, generatedDir, sourceSuffix, outputSuffix, exclude,
        names, debounceMs, retries, retryDelayMs⟩
  · rw [setting, hname]
    rfl
  · rw [setting, Toml.Table.get?_erase_self]
  · exact (hkeep (by revert hj; cases j <;> cases k <;> decide)).symm

end Settings

/-! ## 6. The settings of a project -/

namespace Project

open Settings (NameSetting Hinges Overrides override)

/-- The configuration file that settings are loaded from. -/
def configFile (d : Disk) (cwd : Path) (root file : Option Path) : Except Failure Path :=
  match file, root with
  | some file, _ => .ok file
  | none, some root => .ok (root.child configName)
  | none, none => (findRoot d cwd cwd).map fun root => root.child configName

theorem loadSettings_of_readConfig {d : Disk} {cwd p : Path} {root file : Option Path}
    {document : Toml.Table} (hfile : configFile d cwd root file = .ok p)
    (hread : readConfig d cwd p = .ok (some document)) :
    loadSettings d cwd root file = settingsFrom document := by
  cases file with
  | some file =>
    cases hfile
    rw [loadSettings, settingsIn, hread]
    rfl
  | none =>
    cases root with
    | some root =>
      cases hfile
      rw [loadSettings, settingsOf, hread]
      rfl
    | none =>
      cases hroot : findRoot d cwd cwd with
      | error f =>
        rw [configFile, hroot] at hfile
        cases hfile
      | ok root =>
        rw [configFile, hroot] at hfile
        cases hfile
        rw [loadSettings, hroot]
        dsimp only
        rw [settingsOf, hread]
        rfl

/-- The settings are loaded from a file that gives the text `t` for a name, and `rest` is what else
is in the file. -/
def GivesName (d : Disk) (cwd : Path) (root file : Option Path) (k : NameSetting) (t : Text)
    (rest : Toml.Table) : Prop :=
  ∃ (p : Path) (document codegen : Toml.Table), configFile d cwd root file = .ok p ∧
    readConfig d cwd p = .ok (some document) ∧
    document.get? "codegen" = some (.table codegen) ∧
    codegen.get? k.key = some (.string t) ∧ rest = k.withoutName document codegen

/-- **A name is accepted exactly if it is loosely dotted.**

This holds of each of the names, in every configuration file, whatever else is in it, and for every
run, whatever else is given for it.  A name that is accepted is in the settings as it was given, and
all else is as without it.  A name that is not accepted is a fault of the configuration, and the
fault that is reported unless there is another.  All dotted identifiers are accepted. -/
theorem name_accepted_iff (k : NameSetting) (t : Text) :
    (∀ d cwd root file rest, GivesName d cwd root file k t rest →
      Hinges (Text.IsLooselyDotted t) (.settings (.notIdentifier ("codegen." ++ k.key))) (k.putIn t)
        (loadSettings d cwd root file) (settingsFrom rest)) ∧
    (∀ (names : Names) (o : Overrides), k.given o = some (.text t) →
      Hinges (Text.IsLooselyDotted t) (.notIdentifier k.option) (k.put t)
        (override names o) (override names (k.withhold o))) ∧
    (∀ name, (Failure.settings (.notIdentifier name)).label = "TagweaveConfigError".toList ∧
      (Failure.settings (.notIdentifier name)).message =
        "Invalid config: " ++ name ++ " must be a dotted identifier.") ∧
    (Text.IsDottedIdentifier t → Text.IsLooselyDotted t) := by
  refine ⟨?_, fun names o hgiven => Settings.hinges_override names hgiven, fun _ => ⟨rfl, rfl⟩,
    fun h => h.isLooselyDotted⟩
  rintro d cwd root file _ ⟨p, document, codegen, hfile, hread, hsection, hname, rfl⟩
  rw [loadSettings_of_readConfig hfile hread]
  exact (Settings.hinges_ofTable hsection hname).mapError _

/-- A project in `/p` with a configuration file and nothing else. -/
def configuredBy (settings : Text) : Disk :=
  ⟨[(["p"], .directory), (["p", "tagweave.toml"], .file (Utf8.encode settings))]⟩

/-- A dotted name in a file is accepted, and a name with a blank that is given for a run is not. -/
theorem name_accepted_iff_dotted :
    loadSettings (configuredBy "[codegen]\nfactory = \"My.Dom\"") ⟨.root, []⟩ (some ⟨.root, ["p"]⟩)
        none = .ok { names := { factory := "My.Dom" } } ∧
      override {} { createText := some (.text "my text") } =
        .error (.notIdentifier "--create-text") := by
  constructor
  · have hread : readConfig (configuredBy "[codegen]\nfactory = \"My.Dom\"") ⟨.root, []⟩
        ⟨.root, ["p", "tagweave.toml"]⟩ =
          .ok (some [("codegen", .table [("factory", .string "My.Dom")])]) := by
      cbv
    have haccepted : Text.IsLooselyDotted "My.Dom" := Text.isDottedName_iff.mp (by decide +kernel)
    exact ((name_accepted_iff .factory "My.Dom").1 _ _ (some ⟨.root, ["p"]⟩) none _
      ⟨_, _, _, rfl, hread, rfl, rfl, rfl⟩).accepts haccepted
  · have hrefused : ¬Text.IsLooselyDotted "my text" := fun h =>
      absurd (Text.isDottedName_iff.mpr h) (by decide +kernel)
    exact ((name_accepted_iff .createText "my text").2.1 {} _ rfl).faults hrefused _ rfl

/-- **Names that are no dotted identifiers are accepted**, in a file and for a run: a part may be
empty, or start with a digit. -/
theorem undotted_name_accepted :
    ¬Text.IsDottedIdentifier "a..b" ∧ ¬Text.IsDottedIdentifier "a.1" ∧
      ¬Text.IsDottedIdentifier "." ∧
      loadSettings (configuredBy "[codegen]\nfactory = \"a..b\"\ncreate_element = \"a.1\"")
        ⟨.root, []⟩
        (some ⟨.root, ["p"]⟩) none =
          .ok { names := { factory := "a..b", createElement := "a.1" } } ∧
      override {} { createText := some (.text ".") } = .ok { createText := "." } := by
  decide +kernel

end Project

end InlineMarkup
