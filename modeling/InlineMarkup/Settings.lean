import InlineMarkup.Call.Names
import InlineMarkup.Path.Output
import InlineMarkup.Text.Identifier
import InlineMarkup.Toml.Value

/-!
# Settings

The settings of a project are read from the table of its configuration file.  Whatever is not
set has a default.  First every setting has to be of its type, in the order in which they are
listed here; then the settings have to fit together.

The names used in calls have to be identifiers once their dots are taken for underscores.
-/

namespace InlineMarkup

/-- The settings of a project. -/
structure Settings where
  version : Int := 1
  sourceRoots : List Text := ["."]
  generatedDir : Text := Path.generatedDir
  sourceSuffix : Text := Path.sourceSuffix
  outputSuffix : Text := Path.outputSuffix
  exclude : List Text := ["**/bin/**", "**/obj/**"]
  names : Names := {}
  debounceMs : Int := 500
  retries : Int := 10
  retryDelayMs : Int := 50
deriving DecidableEq, Repr

namespace Settings

/-! ## 1. What can be wrong -/

/-- What a setting was expected to be. -/
inductive Expected where
  | table
  | texts
  | boolean
  | integer
  | text
deriving DecidableEq, Repr

/-- The wording of an expectation. -/
def Expected.phrase : Expected → Text
  | .table => "a table"
  | .texts => "a list of strings"
  | .boolean => "a boolean"
  | .integer => "an integer"
  | .text => "a string"

/-- Why there are no settings. -/
inductive Fault where
  /-- A directory holds several project files and no configuration file. -/
  | severalProjects (directory : Path)
  /-- No directory on the way up is that of a project. -/
  | noProject
  /-- The configuration file cannot be read. -/
  | unreadable (file : Path)
  /-- The configuration file is not UTF-8. -/
  | notUtf8 (file : Path)
  /-- The configuration file is not TOML. -/
  | notToml (file : Path)
  /-- The configuration file that was asked for does not exist. -/
  | missing (file : Path)
  /-- The setting is of another type. -/
  | unexpected (name : Text) (expected : Expected)
  /-- The version is not one. -/
  | unsupportedVersion (version : Int)
  /-- An integer is not read or not written. -/
  | digits (f : DigitFault)
  /-- The setting is not a dotted identifier. -/
  | notIdentifier (name : Text)
  /-- A suffix does not start with a dot. -/
  | suffixWithoutDot
  /-- Sources and outputs have the same suffix. -/
  | sameSuffixes
  /-- The generated directory is not a relative path. -/
  | generatedDirNotRelative
  /-- A delay is negative. -/
  | negativeDelay
  /-- There is to be no attempt at all. -/
  | tooFewRetries
deriving DecidableEq, Repr

/-- The wording of a fault. -/
def Fault.message : Fault → Text
  | severalProjects directory =>
    "Multiple .csproj files found in " ++ directory.text ++
      ". Run the command from the desired project directory or add a tagweave.toml."
  | noProject => "Could not find tagweave.toml or a .csproj by walking upward from start path."
  | unreadable file => "Failed reading config file: " ++ file.text
  | notUtf8 file => "Config is not valid UTF-8: " ++ file.text
  | notToml file => "Invalid TOML in " ++ file.text ++ ": not a TOML document"
  | missing file => "Missing tagweave.toml at: " ++ file.text
  | unexpected name expected => "Expected " ++ name ++ " to be " ++ expected.phrase ++ "."
  | unsupportedVersion version =>
    "Unsupported config version: " ++ Text.ofInt version ++ " (expected 1)."
  | digits f => f.message
  | notIdentifier name => "Invalid config: " ++ name ++ " must be a dotted identifier."
  | suffixWithoutDot => "Invalid config: file suffixes must start with '.'."
  | sameSuffixes => "Invalid config: paths.output_suffix must differ from paths.source_suffix."
  | generatedDirNotRelative =>
    "Invalid config: paths.generated_dir must be a relative directory name."
  | negativeDelay => "Invalid config: delays must be >= 0."
  | tooFewRetries => "Invalid config: io.retries must be >= 1."

/-- The fault is one of the configuration; that an integer has too many digits is not. -/
def Fault.isOfConfiguration : Fault → Bool
  | digits _ => false
  | _ => true

/-! ## 2. Single settings -/

/-- The value as a list of texts. -/
def texts? : Toml.Value → Option (List Text)
  | .array items =>
    items.mapM fun
      | .string t => some t
      | _ => none
  | _ => none

/-- A reader of one setting, which is told the setting's name. -/
abbrev Reader (α : Type) := Text → Toml.Value → Except Fault α

/-- Reads a list of texts. -/
def readTexts : Reader (List Text) := fun name v =>
  match texts? v with
  | some l => .ok l
  | none => .error (.unexpected name .texts)

/-- Reads a text. -/
def readText : Reader Text := fun name v =>
  match v with
  | .string t => .ok t
  | _ => .error (.unexpected name .text)

/-- Reads a boolean. -/
def readBoolean : Reader Bool := fun name v =>
  match v with
  | .boolean b => .ok b
  | _ => .error (.unexpected name .boolean)

/-- Reads an integer. -/
def readInteger : Reader Int := fun name v =>
  match v with
  | .integer i => .ok i
  | _ => .error (.unexpected name .integer)

/-- A text that can be a name in calls. -/
def checkIdentifier (name t : Text) : Except Fault Text :=
  if Text.isDottedName t then .ok t else .error (.notIdentifier name)

/-- Reads a name for calls. -/
def readIdentifier : Reader Text := fun name v => do
  checkIdentifier name (← readText name v)

/-- The section of a document with this name; a missing one is empty. -/
def readSection (document : Toml.Table) (name : Text) : Except Fault Toml.Table :=
  match document.get? name with
  | none => .ok []
  | some (.table t) => .ok t
  | some _ => .error (.unexpected ("[" ++ name ++ "]") .table)

/-- Reads the setting of a section, or takes its default. -/
def setting {α : Type} (sectionName : Text) (table : Toml.Table) (read : Reader α) (key : Text)
    (default : α) : Except Fault α :=
  match table.get? key with
  | none => .ok default
  | some v => read (sectionName ++ "." ++ key) v

/-! ## 3. All settings -/

/-- The settings fit together. -/
def check (s : Settings) : Except Fault Settings :=
  if !Text.startsWith s.sourceSuffix "." || !Text.startsWith s.outputSuffix "." then
    .error .suffixWithoutDot
  else if s.sourceSuffix = s.outputSuffix then .error .sameSuffixes
  else if s.generatedDir.isEmpty || (Path.ofText s.generatedDir).isAbsolute then
    .error .generatedDirNotRelative
  else if s.debounceMs < 0 || s.retryDelayMs < 0 then .error .negativeDelay
  else if s.retries < 1 then .error .tooFewRetries
  else .ok s

/-- The version of the settings, which has to be one. -/
def readVersion (document : Toml.Table) : Except Fault Int :=
  match document.get? "version" with
  | none => .ok 1
  | some v => do
    let version ← readInteger "version" v
    if version = 1 then .ok version
    else
      match Text.ofInt? version with
      | .error f => .error (.digits f)
      | .ok _ => .error (.unsupportedVersion version)

/-- The settings in the table of a configuration file. -/
def ofTable (document : Toml.Table) : Except Fault Settings := do
  let d : Settings := {}
  let version ← readVersion document
  let paths ← readSection document "paths"
  let codegen ← readSection document "codegen"
  let watch ← readSection document "watch"
  let io ← readSection document "io"
  let sourceRoots ← setting "paths" paths readTexts "source_roots" d.sourceRoots
  let generatedDir ← setting "paths" paths readText "generated_dir" d.generatedDir
  let sourceSuffix ← setting "paths" paths readText "source_suffix" d.sourceSuffix
  let outputSuffix ← setting "paths" paths readText "output_suffix" d.outputSuffix
  let exclude ← setting "paths" paths readTexts "exclude" d.exclude
  let factory ← setting "codegen" codegen readIdentifier "factory" d.names.factory
  let createElement ←
    setting "codegen" codegen readIdentifier "create_element" d.names.createElement
  let createText ← setting "codegen" codegen readIdentifier "create_text" d.names.createText
  let wrapText ← setting "codegen" codegen readBoolean "wrap_text" d.names.wrapText
  let debounceMs ← setting "watch" watch readInteger "debounce_ms" d.debounceMs
  let retries ← setting "io" io readInteger "retries" d.retries
  let retryDelayMs ← setting "io" io readInteger "retry_delay_ms" d.retryDelayMs
  check
    { version, sourceRoots, generatedDir, sourceSuffix, outputSuffix, exclude,
      names := { factory, createElement, createText, wrapText },
      debounceMs, retries, retryDelayMs }

end Settings

end InlineMarkup
