import InlineMarkup.Text.Quoted

/-!
# JSON

Values as they are printed for programs: on one line, the keys of an object in order, and every
character outside of printable ASCII as an escape.  A character past the first 65536 is escaped
as two halves.
-/

namespace InlineMarkup

/-- A JSON value. -/
inductive Json where
  | null
  | boolean (value : Bool)
  /-- A number as it is written. -/
  | number (literal : Text)
  | string (content : Text)
  | array (items : List Json)
  | object (entries : List (Text × Json))
deriving Repr, Inhabited

namespace Json

/-- A text, or null. -/
def ofOption : Option Text → Json
  | some t => .string t
  | none => .null

/-! ## 1. Strings -/

/-- A unit of sixteen bits as an escape. -/
def unitEscape (n : Nat) : Text := '\\' :: 'u' :: Text.hexDigits 4 n

/-- A character within a string. -/
def escapedChar (c : Char) : Text :=
  match c with
  | '"' => ['\\', '"']
  | '\\' => ['\\', '\\']
  | '\n' => ['\\', 'n']
  | '\r' => ['\\', 'r']
  | '\t' => ['\\', 't']
  | '\x08' => ['\\', 'b']
  | '\x0c' => ['\\', 'f']
  | c =>
    let n := c.toNat
    if 0x20 ≤ n ∧ n < 0x7F then [c]
    else if n < 0x10000 then unitEscape n
    else
      let m := n - 0x10000
      unitEscape (0xD800 + m / 0x400) ++ unitEscape (0xDC00 + m % 0x400)

/-- A string in its quotes. -/
def quotedString (t : Text) : Text := '"' :: t.flatMap escapedChar ++ ['"']

/-! ## 2. Values -/

/-- Entries in the order of their keys. -/
def inKeyOrder (entries : List (Text × Text)) : List (Text × Text) :=
  entries.mergeSort fun a b => !Text.precedes b.1 a.1

mutual

/-- A value on one line. -/
def print : Json → Text
  | .null => "null"
  | .boolean true => "true"
  | .boolean false => "false"
  | .number literal => literal
  | .string t => quotedString t
  | .array items => "[" ++ Text.joinWith ", " (printItems items) ++ "]"
  | .object entries =>
    let printed := (inKeyOrder (printEntries entries)).map fun e => quotedString e.1 ++ ": " ++ e.2
    "\x7b" ++ Text.joinWith ", " printed ++ "\x7d"

/-- Values, each on one line. -/
def printItems : List Json → List Text
  | [] => []
  | item :: rest => print item :: printItems rest

/-- The values of entries, each on one line. -/
def printEntries : List (Text × Json) → List (Text × Text)
  | [] => []
  | (key, value) :: rest => (key, print value) :: printEntries rest

end

end Json

end InlineMarkup
