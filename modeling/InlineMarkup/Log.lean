import InlineMarkup.Expansion
import InlineMarkup.Path

/-!
# The log

What a run notes on its way, in order.  The log is shown only when it is asked for.
-/

namespace InlineMarkup

/-- A note in the log. -/
inductive LogRecord where
  /-- On the way to an expanded text. -/
  | expansion (note : Expansion.Note)
  /-- An operation on a file failed and is tried again. -/
  | retried (operation : Text) (attempt attempts : Nat) (message : Text)
  /-- A file could not be built. -/
  | failedBuilding (source : Path) (message : Text)
deriving DecidableEq, Repr

/-- A note about an expansion as a line. -/
def Expansion.Note.line : Expansion.Note → Text
  | unbalanced offset =>
    "DEBUG tagweave.extractor: Skipping unbalanced markup region at offset " ++ Text.ofNat offset
  | stray c offset =>
    "DEBUG tagweave.lexer: Skipping stray " ++ Text.quoted [c] ++ " inside tag at offset " ++
      Text.ofNat offset
  | failed expression message =>
    "INFO tagweave.preprocessor: Failed to transform " ++ Text.quoted expression ++ ": " ++ message
  | pass number found expanded =>
    "DEBUG tagweave.preprocessor: Pass " ++ Text.ofNat number ++ ": " ++ Text.ofNat found ++
      " region(s), " ++ Text.ofNat expanded ++ " rewritten"

/-- A note as a line. -/
def LogRecord.line : LogRecord → Text
  | expansion note => note.line
  | retried operation attempt attempts message =>
    "DEBUG tagweave.fileio: " ++ operation ++ " failed (attempt " ++ Text.ofNat attempt ++ "/" ++
      Text.ofNat attempts ++ "): " ++ message
  | failedBuilding source message =>
    "INFO tagweave.builder: Failed building " ++ source.text ++ ": " ++ message

end InlineMarkup
