import InlineMarkup.Project.Build
import InlineMarkup.Report.Json

/-!
# Reports

A build as shown to people, line by line, and to programs, as JSON.  Both take a file for a
success exactly when it was built and all its regions were expanded.
-/

namespace InlineMarkup.Report

open Project (FileResult BuildReport)

/-! ## 1. For people -/

/-- The lines for a region that was not expanded. -/
def regionLines (e : Expansion) : List Text :=
  ["      Error: " ++ e.expression, "      " ++ e.error.getD []]

/-- The line for a file, and the lines for its failed regions. -/
def fileLines (cwd root : Path) (r : FileResult) : List Text :=
  let name := Path.display cwd r.source root
  match r.error with
  | some error => ["  x " ++ name, "      " ++ error]
  | none =>
    if r.errorCount = 0 then ["  ok " ++ name ++ " " ++ r.duration.shown]
    else
      ("  ! " ++ name ++ " (" ++ Text.ofNat r.okCount ++ " ok, " ++
          Text.counted r.errorCount "error" ++ ") " ++ r.duration.shown) ::
        (r.expansions.filter fun e => !e.succeeded).flatMap regionLines

/-- What is shown for a file. -/
def file (cwd root : Path) (r : FileResult) : Text := Text.joinWith "\n" (fileLines cwd root r)

/-- One line for a whole build. -/
def summary (r : BuildReport) : Text :=
  if r.files.isEmpty then "No source files found."
  else
    let failures : Text :=
      if r.ok then [] else " (" ++ Text.ofNat r.failed.length ++ " with errors)"
    "Built " ++ Text.counted r.files.length "file" ++ " in " ++ r.duration.shown ++ failures

/-- What is shown for a whole build. -/
def text (cwd root : Path) (r : BuildReport) : Text :=
  Text.trimBy (· == '\n') (Text.joinWith "\n" (r.files.map (file cwd root) ++ [[], summary r])) ++
    "\n"

/-! ## 2. For programs -/

/-- A region. -/
def expansionJson (e : Expansion) : Json :=
  .object [("original", .string e.expression), ("success", .boolean e.succeeded),
    ("error", .ofOption e.error)]

/-- A file. -/
def fileJson (cwd root : Path) (r : FileResult) : Json :=
  .object [("source", .string (Path.display cwd r.source root)),
    ("output", .string (Path.display cwd r.output root)), ("ok", .boolean r.ok),
    ("error", .ofOption r.error), ("transformations", .array (r.expansions.map expansionJson))]

/-- A whole build. -/
def json (cwd root : Path) (r : BuildReport) : Json :=
  .object [("command", .string "build"), ("ok", .boolean r.ok),
    ("duration_s", .number r.duration.seconds), ("files", .array (r.files.map (fileJson cwd root)))]

/-- A command that has failed. -/
def errorJson (command message : Text) : Json :=
  .object [("command", .string command), ("ok", .boolean false), ("error", .string message)]

end InlineMarkup.Report
