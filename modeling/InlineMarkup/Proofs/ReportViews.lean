import InlineMarkup.Cli.Session
import InlineMarkup.Proofs.Building

/-!
# The views of a build agree

Whether a build went well is told in many ways: by the report itself, by the JSON as a whole and for
each file, by the mark in front of each file's line, by the last line of the text, and by the exit
code.  They agree (`views_agree`).

All of them go back to the single files.  A file's line is of one of three forms (`file_of_ok`,
`file_of_error`, `file_of_failures`), and the first letters tell which.  The summary holds no
parentheses but those around the number of failures, since numbers and durations have none, so the
number can be read off it without doubt (`summary_shows_iff`).
-/

namespace InlineMarkup

/-! ## 1. Reading JSON -/

namespace Json

/-- The value at a key of an object. -/
def field? (key : Text) : Json → Option Json
  | .object entries => (entries.find? fun e => e.1 == key).map Prod.snd
  | _ => none

/-- The boolean at a key of an object. -/
def flag? (key : Text) (j : Json) : Option Bool :=
  match j.field? key with
  | some (.boolean b) => some b
  | _ => none

/-- The items of the array at a key of an object. -/
def items (key : Text) (j : Json) : List Json :=
  match j.field? key with
  | some (.array l) => l
  | _ => []

end Json

/-! ## 2. Texts -/

namespace Text

/-- Joined lines are the first of them and then the others, each behind the separator. -/
theorem joinWith_eq_flatMap (separator t : Text) : ∀ ts : List Text,
    joinWith separator (t :: ts) = t ++ ts.flatMap (separator ++ ·)
  | [] => by simp [joinWith]
  | u :: ts => by
    rw [joinWith_cons_cons, joinWith_eq_flatMap separator u ts, List.flatMap_cons,
      List.append_assoc]

theorem isDigit_of_mem_ofNat {n : Nat} {c : Char} (h : c ∈ ofNat n) : c.isDigit = true :=
  Nat.isDigit_of_mem_toDigits (by omega) (by omega) h

/-- The text holds no parentheses. -/
def IsBare (t : Text) : Prop := '(' ∉ t ∧ ')' ∉ t

instance (t : Text) : Decidable (IsBare t) := inferInstanceAs (Decidable (_ ∧ _))

theorem IsBare.append {s t : Text} (hs : IsBare s) (ht : IsBare t) : IsBare (s ++ t) := by
  simp only [IsBare, List.mem_append, not_or]
  exact ⟨⟨hs.1, ht.1⟩, hs.2, ht.2⟩

theorem isBare_ofNat (n : Nat) : IsBare (ofNat n) :=
  ⟨fun h => absurd (isDigit_of_mem_ofNat h) (by decide),
    fun h => absurd (isDigit_of_mem_ofNat h) (by decide)⟩

theorem isBare_counted (n : Nat) {noun : Text} (h : IsBare noun) : IsBare (counted n noun) := by
  have hending : IsBare (if n = 1 then "" else "s" : String).toList := by
    split <;> decide
  exact (((isBare_ofNat n).append (by decide)).append h).append hending

/-- The digits of a number can be told from a blank that follows them. -/
theorem takeWhile_ofNat (n : Nat) (rest : Text) :
    (ofNat n ++ ' ' :: rest).takeWhile Char.isDigit = ofNat n := by
  rw [List.takeWhile_append_of_pos fun c => isDigit_of_mem_ofNat]
  simp

theorem ofNat_injective : Function.Injective ofNat := by
  intro m n h
  have hread : ∀ k, Nat.ofDigitChars 10 (ofNat k) 0 = k := fun k => Nat.ofDigitChars_ten_toDigits
  rw [← hread m, h, hread]

end Text

namespace Report

open Project (FileResult BuildReport)

variable (cwd root : Path)

/-! ## 3. Files -/

/-- The regions of a file that were not expanded, in order. -/
def failures (f : FileResult) : List Expansion := f.expansions.filter fun e => !e.succeeded

/-- What is shown for a region that was not expanded: its two lines, each after a line end. -/
def entry (e : Expansion) : Text :=
  ("\n" ++ ("      Error: " ++ e.expression)) ++ ("\n" ++ ("      " ++ e.error.getD []))

theorem flatMap_regionLines (e : Expansion) :
    (regionLines e).flatMap (("\n" : Text) ++ ·) = entry e := by
  rw [regionLines, List.flatMap_cons, List.flatMap_singleton, entry]

theorem file_of_ok {f : FileResult} (h : f.ok = true) : file cwd root f =
    "  ok " ++ Path.display cwd f.source root ++ " " ++ f.duration.shown := by
  rw [FileResult.ok, Bool.and_eq_true, Option.isNone_iff_eq_none, beq_iff_eq] at h
  simp [file, fileLines, h.1, h.2, Text.joinWith]

theorem file_of_error {f : FileResult} {error : Text} (h : f.error = some error) : file cwd root f =
    "  x " ++ Path.display cwd f.source root ++ "\n      " ++ error := by
  simp [file, fileLines, h, Text.joinWith]

theorem file_of_failures {f : FileResult} (herror : f.error = none) (hcount : f.errorCount ≠ 0) :
    file cwd root f =
      "  ! " ++ Path.display cwd f.source root ++ " (" ++ Text.ofNat f.okCount ++ " ok, " ++
        Text.counted f.errorCount "error" ++ ") " ++ f.duration.shown ++
        (failures f).flatMap entry := by
  rw [file, fileLines, herror]
  dsimp only
  rw [if_neg hcount, Text.joinWith_eq_flatMap, List.flatMap_assoc]
  simp only [flatMap_regionLines, failures]

theorem okCount_add_errorCount (f : FileResult) :
    f.okCount + f.errorCount = f.expansions.length := by
  rw [FileResult.okCount, FileResult.errorCount, ← List.length_eq_length_filter_add]

/-- A file is a success, or it could not be built, or some of its regions were not expanded. -/
theorem ok_cases (f : FileResult) : f.ok = true ∨ (∃ error, f.error = some error) ∨
    f.error = none ∧ f.errorCount ≠ 0 := by
  cases herror : f.error with
  | some error => exact Or.inr (Or.inl ⟨error, rfl⟩)
  | none =>
    by_cases hcount : f.errorCount = 0
    · exact Or.inl (by simp [FileResult.ok, herror, hcount])
    · exact Or.inr (Or.inr ⟨rfl, hcount⟩)

/-- The first letters of a file's line tell whether the file is a success. -/
theorem startsWith_ok (f : FileResult) : Text.startsWith (file cwd root f) "  ok " = f.ok := by
  rcases ok_cases f with h | ⟨error, h⟩ | ⟨herror, hcount⟩
  · rw [file_of_ok cwd root h, h]
    rfl
  · have hok : f.ok = false := by simp [FileResult.ok, h]
    rw [file_of_error cwd root h, hok]
    rfl
  · have hok : f.ok = false := by simp [FileResult.ok, herror, hcount]
    rw [file_of_failures cwd root herror hcount, hok]
    rfl

/-- They also tell whether some of its regions were not expanded. -/
theorem failures_of_startsWith {f : FileResult}
    (h : Text.startsWith (file cwd root f) "  ! " = true) : f.error = none ∧ f.errorCount ≠ 0 := by
  rcases ok_cases f with hok | ⟨error, herror⟩ | hfailures
  · rw [file_of_ok cwd root hok] at h
    cases h
  · rw [file_of_error cwd root herror] at h
    cases h
  · exact hfailures

/-! ## 4. The summary -/

theorem isBare_shown (d : Duration) : Text.IsBare d.shown := by
  have hsign : Text.IsBare (if d.milliseconds.negative then "-" else "" : Text) := by
    split <;> decide
  refine Text.IsBare.append ?_ (by decide)
  unfold Duration.fixed
  dsimp only
  split
  · exact hsign.append (by decide)
  · rw [if_pos rfl]
    exact hsign.append (Text.isBare_ofNat _)

/-- What the summary of a build that has files starts with. -/
def opening (r : BuildReport) : Text :=
  "Built " ++ Text.counted r.files.length "file" ++ " in " ++ r.duration.shown

theorem isBare_opening (r : BuildReport) : Text.IsBare (opening r) := by
  have hbuilt : Text.IsBare "Built " := by decide
  exact
    ((hbuilt.append (Text.isBare_counted _ (by decide))).append (by decide)).append (isBare_shown _)

/-- What the summary ends with when so many files failed. -/
def closing (n : Nat) : Text := " (" ++ Text.ofNat n ++ " with errors)"

theorem ok_eq_false_iff {r : BuildReport} : r.ok = false ↔ r.failed ≠ [] := by
  simp [BuildReport.ok]

theorem summary_of_ok {r : BuildReport} (h : r.ok = true) : Text.IsBare (summary r) := by
  unfold summary
  rw [h]
  split
  · decide
  · have hnone : Text.IsBare [] := by decide
    exact (isBare_opening r).append hnone

theorem summary_of_failed {r : BuildReport} (h : r.ok = false) :
    summary r = opening r ++ closing r.failed.length := by
  have hfiles : r.files.isEmpty = false := by
    cases hempty : r.files with
    | nil => exact absurd (by simp [BuildReport.failed, hempty]) (ok_eq_false_iff.mp h)
    | cons f files => rfl
  unfold summary
  rw [if_neg (by simp [hfiles]), h]
  rfl

/-- **The summary speaks of errors exactly if there are any.** -/
theorem includes_errors_iff {r : BuildReport} :
    Text.includes (summary r) " with errors)" = true ↔ r.ok = false := by
  rw [Text.includes_iff]
  constructor
  · intro h
    by_contra hok
    have hbare := summary_of_ok (Bool.eq_true_of_not_eq_false hok)
    exact hbare.2 (h.subset (by decide))
  · intro h
    rw [summary_of_failed h]
    exact ⟨opening r ++ (" (" ++ Text.ofNat r.failed.length), [], by simp [closing]⟩

/-- **The summary shows the number of failures and no other.** -/
theorem summary_shows_iff {r : BuildReport} {n : Nat} :
    Text.includes (summary r) (closing n) = true ↔ r.ok = false ∧ n = r.failed.length := by
  constructor
  · intro h
    have hwithin := Text.includes_iff.mp h
    have herrors : (" with errors)" : Text) <:+: closing n :=
      ⟨" (" ++ Text.ofNat n, [], by simp [closing]⟩
    have hok := includes_errors_iff.mp (Text.includes_iff.mpr (herrors.trans hwithin))
    refine ⟨hok, ?_⟩
    obtain ⟨a, b, hsplit⟩ := hwithin
    rw [summary_of_failed hok] at hsplit
    -- there is one opening parenthesis, and the digits follow it up to a blank
    have hblank : (" with errors)" : Text) = ' ' :: ("with errors)" : Text) := by decide
    have hparen : (opening r ++ [' ']) ++ '(' :: (Text.ofNat r.failed.length ++ " with errors)") =
        (a ++ [' ']) ++ '(' :: (Text.ofNat n ++ (" with errors)" ++ b)) := by
      simpa [closing] using hsplit.symm
    have hbefore : Text.IsBare (opening r ++ [' ']) := (isBare_opening r).append (by decide)
    have hafter : '(' ∉ Text.ofNat r.failed.length ++ " with errors)" := by
      rw [List.mem_append, not_or]
      exact ⟨(Text.isBare_ofNat _).1, by decide⟩
    have hdigits := ((List.append_cons_inj_of_notMem hbefore.1 hafter).mp hparen).2.2
    rw [hblank, List.cons_append] at hdigits
    have hread := congrArg (List.takeWhile Char.isDigit) hdigits
    rw [Text.takeWhile_ofNat, Text.takeWhile_ofNat] at hread
    exact (Text.ofNat_injective hread).symm
  · rintro ⟨hok, rfl⟩
    rw [Text.includes_iff, summary_of_failed hok]
    exact (List.suffix_append _ _).isInfix

/-! ## 5. JSON -/

theorem flag?_json (r : BuildReport) : (json cwd root r).flag? "ok" = some r.ok := rfl

theorem items_json (r : BuildReport) :
    (json cwd root r).items "files" = r.files.map (fileJson cwd root) := rfl

theorem flag?_fileJson (f : FileResult) : (fileJson cwd root f).flag? "ok" = some f.ok := rfl

theorem items_fileJson (f : FileResult) :
    (fileJson cwd root f).items "transformations" = f.expansions.map expansionJson := rfl

theorem flag?_expansionJson (e : Expansion) :
    (expansionJson e).flag? "success" = some e.succeeded := rfl

/-! ## 6. Runs -/

theorem disk_tellAll : ∀ (lines : List Text) (s : Cli.Session), (s.tellAll lines).disk = s.disk
  | [], _ => rfl
  | line :: lines, s => disk_tellAll lines (s.tell line)

/-- A build that has a report ends with the report's exit code, and the report is shown. -/
theorem runBuild_of_report {σ : Type} (now : StateM σ Duration) {env : Cli.Surroundings}
    {a : Cli.Arguments} {s : Cli.Session} {c : σ} {root : Path} {settings : Settings}
    {r : BuildReport} (hload : Cli.loadProject s.disk env.cwd a = .ok (root, settings))
    (hbuilt :
      ((Project.buildAll now env.system s.disk env.cwd root settings).run c).1.result = .ok r) :
    ∃ s', ((Cli.runBuild now env a s).run c).1 =
      (.ok (Cli.exitCode r), Cli.showReport a env.cwd root r s') := by
  have hdisk : (if a.json then s else s.tellAll (Cli.header root settings)).disk = s.disk := by
    split
    · rfl
    · exact disk_tellAll _ s
  unfold Cli.runBuild
  rw [hload]
  dsimp only
  rw [hdisk]
  obtain ⟨⟨built, c'⟩, hrun⟩ : ∃ done,
      (Project.buildAll now env.system s.disk env.cwd root settings).run c = done := ⟨_, rfl⟩
  rw [hrun] at hbuilt
  rw [Project.run_bind_of_run hrun]
  dsimp only at hbuilt ⊢
  rw [hbuilt]
  exact ⟨_, rfl⟩

/-! ## 7. All views -/

theorem ok_iff {r : BuildReport} : r.ok = true ↔ ∀ f ∈ r.files, f.ok = true := by
  simp [BuildReport.ok, BuildReport.failed]

theorem file_ok_iff {f : FileResult} :
    f.ok = true ↔ f.error = none ∧ ∀ e ∈ f.expansions, e.succeeded = true := by
  simp [FileResult.ok, FileResult.errorCount]

theorem exitCode_of_ok {r : BuildReport} (h : r.ok = true) : Cli.exitCode r = 0 := by
  rw [Cli.exitCode, if_pos h]
  rfl

theorem exitCode_of_failed {r : BuildReport} (h : r.ok = false) : Cli.exitCode r = 3 := by
  rw [Cli.exitCode, h]
  rfl

/-- The lines that do not start as those of a success are those of the failed files. -/
theorem countP_lines (r : BuildReport) :
    (r.files.map (file cwd root)).countP (fun t => !Text.startsWith t "  ok ") =
      r.failed.length := by
  rw [List.countP_map, BuildReport.failed, ← List.countP_eq_length_filter]
  refine List.countP_congr fun f _ => ?_
  rw [Function.comp_apply, startsWith_ok]

theorem countP_items (r : BuildReport) :
    ((json cwd root r).items "files").countP (fun item => item.flag? "ok" == some false) =
      r.failed.length := by
  rw [items_json, List.countP_map, BuildReport.failed, ← List.countP_eq_length_filter]
  refine List.countP_congr fun f _ => ?_
  rw [Function.comp_apply, flag?_fileJson]
  cases f.ok <;> simp

/-- **All views of a build agree.**

Whatever files a report has, these come to the same: the report is one of success; the JSON says so;
it says so of each file; the line of each file starts as that of a success; the summary does not
speak of errors; the exit code is 0, and not 3; no file has an error or, in the JSON, a region
without success.  The number in the summary is the number of lines that do not start so, and the
number of files without success in the JSON.  Where a line counts regions, the counts add up to all
of them, and the failed ones follow in order, each with its two lines.  A build that has the report
ends with the exit code, and shows the report. -/
theorem views_agree (cwd root : Path) (r : BuildReport) :
    [r.ok = true,
      (json cwd root r).flag? "ok" = some true,
      ∀ item ∈ (json cwd root r).items "files", item.flag? "ok" = some true,
      ∀ f ∈ r.files, Text.startsWith (file cwd root f) "  ok " = true,
      Text.includes (summary r) " with errors)" = false,
      Cli.exitCode r = 0,
      ∀ f ∈ r.files, f.error = none ∧ ∀ item ∈ (fileJson cwd root f).items "transformations",
        item.flag? "success" ≠ some false].TFAE ∧
    (Cli.exitCode r = 0 ∨ Cli.exitCode r = 3) ∧
    (∀ n, Text.includes (summary r) (" (" ++ Text.ofNat n ++ " with errors)") = true ↔
      r.ok = false ∧
      n = (r.files.map (file cwd root)).countP fun t => !Text.startsWith t "  ok ") ∧
    ((json cwd root r).items "files").countP (fun item => item.flag? "ok" == some false) =
      (r.files.map (file cwd root)).countP (fun t => !Text.startsWith t "  ok ") ∧
    (∀ f, Text.startsWith (file cwd root f) "  ! " = true →
      f.okCount + f.errorCount = f.expansions.length ∧ f.errorCount = (failures f).length ∧
      file cwd root f = "  ! " ++ Path.display cwd f.source root ++ " (" ++ Text.ofNat f.okCount ++
        " ok, " ++ Text.counted f.errorCount "error" ++ ") " ++ f.duration.shown ++
        (failures f).flatMap entry) ∧
    ∀ {σ : Type} (now : StateM σ Duration) (env : Cli.Surroundings) (a : Cli.Arguments)
      (s : Cli.Session) (c : σ) (root : Path) (settings : Settings),
      Cli.loadProject s.disk env.cwd a = .ok (root, settings) →
      ((Project.buildAll now env.system s.disk env.cwd root settings).run c).1.result = .ok r →
      ∃ s', ((Cli.runBuild now env a s).run c).1 =
        (.ok (Cli.exitCode r), Cli.showReport a env.cwd root r s') := by
  refine ⟨?_, ?_, fun n => ?_, ?_, fun f h => ?_, fun now env a s c root settings hload hbuilt =>
    runBuild_of_report now hload hbuilt⟩
  · tfae_have 1 ↔ 2 := by rw [flag?_json, Option.some.injEq]
    tfae_have 1 ↔ 3 := by
      rw [ok_iff, items_json, List.forall_mem_map]
      simp only [flag?_fileJson, Option.some.injEq]
    tfae_have 1 ↔ 4 := by simp only [ok_iff, startsWith_ok]
    tfae_have 1 ↔ 5 := by
      rw [← Bool.not_eq_true (Text.includes _ _), includes_errors_iff, Bool.not_eq_false]
    tfae_have 1 ↔ 6 := by
      constructor
      · exact exitCode_of_ok
      · intro h
        by_contra hok
        rw [exitCode_of_failed (Bool.eq_false_of_not_eq_true hok)] at h
        cases h
    tfae_have 1 ↔ 7 := by
      simp only [ok_iff, file_ok_iff, items_fileJson, List.forall_mem_map, flag?_expansionJson,
        ne_eq,
        Option.some.injEq, Bool.not_eq_false]
    tfae_finish
  · cases h : r.ok with
    | true => exact Or.inl (exitCode_of_ok h)
    | false => exact Or.inr (exitCode_of_failed h)
  · rw [countP_lines]
    exact summary_shows_iff
  · rw [countP_lines, countP_items]
  · obtain ⟨herror, hcount⟩ := failures_of_startsWith cwd root h
    exact ⟨okCount_add_errorCount f, rfl, file_of_failures cwd root herror hcount⟩

/-- A project whose one source is not valid UTF-8. -/
def undecodable : Disk :=
  ⟨[(["p"], .directory), (["p", "tagweave.toml"], .file []), (["p", "V.xcs"], .file [0xff])]⟩

theorem views_agree_undecodable :
    let now : StateM Unit Duration := pure .zero
    let root : Path := ⟨.root, ["p"]⟩
    let env : Cli.Surroundings := { cwd := root, watcher := none }
    let half : FileResult :=
      { source := ⟨.root, ["p", "H.xcs"]⟩, output := ⟨.root, ["p", "Generated", "H.g.cs"]⟩
        expansions := [{ expression := "(<a/>)", generated := some "A()" },
          { expression := "(<b>)", error := some "open" }] }
    (∃ r s', ((Cli.runBuild now env {} ⟨undecodable, [], [], []⟩).run ()).1 =
        (.ok 3, Cli.showReport {} root root r s') ∧
      Text.includes (summary r) (" (" ++ Text.ofNat 1 ++ " with errors)") = true) ∧
    half.okCount + half.errorCount = 2 ∧
      file root root half = "  ! H.xcs (1 ok, 1 error) 0ms\n      Error: (<b>)\n      open" := by
  intro now root env half
  constructor
  · let r : BuildReport :=
      { files := [{ source := ⟨.root, ["p", "V.xcs"]⟩
                    output := ⟨.root, ["p", "Generated", "V.g.cs"]⟩
                    error := some ("UnicodeDecodeError: 'utf-8' codec can't decode byte 0xff in " ++
                      "position 0: invalid start byte") }] }
    obtain ⟨-, -, hnumber, -, -, hrun⟩ := views_agree root root r
    obtain ⟨s', hs⟩ := hrun now env {} ⟨undecodable, [], [], []⟩ () root {}
      (by decide +kernel) (by decide +kernel)
    exact ⟨r, s', hs, (hnumber 1).mpr (by decide +kernel)⟩
  · obtain ⟨-, -, -, -, hcounts, -⟩ := views_agree root root {}
    obtain ⟨hsum, -, hline⟩ := hcounts half (by decide +kernel)
    exact ⟨hsum, hline.trans (by decide +kernel)⟩

end Report

end InlineMarkup
