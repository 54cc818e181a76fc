import InlineMarkup.Toml.Literal

/-!
# Reading TOML documents

A document is a list of statements, one a line: entries, headers of tables and headers of items
of arrays of tables.  Beside the entries read so far a document keeps what may no longer be
changed: a `frozen` key holds an array or an inline table, and nothing under it can be added; a
`declared` key has had its header, or was made by a dotted key in an earlier section, and cannot
be declared again.
-/

namespace InlineMarkup.Toml

/-! ## 1. Keys and blanks -/

/-- Skips blanks within a line. -/
def skipSpaces (t : Text) : Text := t.dropWhile isSpace

/-- Skips a comment, which holds no control characters. -/
def skipComment : Text → Option Text
  | '#' :: rest =>
    if (rest.takeWhile (· != '\n')).any isControl then none
    else some (rest.dropWhile (· != '\n'))
  | t => some t

/-- Skips blanks, line ends and comments, in at most so many rounds. -/
def skipFiller : Nat → Text → Option Text
  | 0, t => some t
  | rounds + 1, t =>
    match t.dropWhile isSpaceOrNewline with
    | '#' :: rest =>
      match skipComment ('#' :: rest) with
      | some t => skipFiller rounds t
      | none => none
    | t => some t

/-- Reads one part of a key. -/
def keyPart : Text → Option (Text × Text)
  | [] => none
  | c :: rest =>
    if isBareKeyChar c then
      some ((c :: rest).takeWhile isBareKeyChar, (c :: rest).dropWhile isBareKeyChar)
    else if c = '\'' then literalString rest
    else if c = '"' then basicString false rest
    else none

/-- Reads a dotted key of at most so many parts, and the blanks after it. -/
def key : Nat → Text → Option (Key × Text)
  | 0, _ => none
  | parts + 1, t =>
    match keyPart t with
    | none => none
    | some (part, rest) =>
      match skipSpaces rest with
      | '.' :: rest => (key parts (skipSpaces rest)).map fun r => (part :: r.1, r.2)
      | rest => some ([part], rest)

/-- Reads a key, the `=` after it and blanks. -/
def keyAndEquals (t : Text) : Option (Key × Text) :=
  match key (t.length + 1) t with
  | some (k, '=' :: rest) => some (k, skipSpaces rest)
  | _ => none

/-- The value holds values of its own. -/
def Value.isCompound : Value → Bool
  | .array _ | .table _ => true
  | _ => false

/-! ## 2. Values -/

/-- Keys that hold an array or an inline table, and the table they are in. -/
structure Inline where
  table : Table := []
  frozen : List Key := []

/-- Some key of a list is `k` or leads to it. -/
def covers (keys : List Key) (k : Key) : Bool := keys.any fun f => f.isPrefixOf k

/-- Adds an entry to an inline table. -/
def Inline.add (s : Inline) (k : Key) (value : Value) : Option Inline :=
  if covers s.frozen k then none
  else
    (Table.update false (Table.insertNew (k.getLastD []) value) k.dropLast s.table).map fun table =>
      { table, frozen := if value.isCompound then k :: s.frozen else s.frozen }

/-- The result of a reader that knows no fault but one: the text is not TOML. -/
def orMalformed {α : Type} : Option α → Except Fault α
  | some a => .ok a
  | none => .error .malformed

mutual

/-- Reads a value. -/
def value : Nat → Text → Except Fault (Value × Text)
  | 0, _ => .error .malformed
  | fuel + 1, t =>
    match t with
    | '"' :: _ | '\'' :: _ => orMalformed ((string t).map fun r => (.string r.1, r.2))
    | '[' :: rest =>
      match skipFiller t.length rest with
      | none => .error .malformed
      | some (']' :: rest) => .ok (.array [], rest)
      | some rest => (items fuel rest).map fun r => (.array r.1, r.2)
    | '{' :: rest =>
      match skipSpaces rest with
      | '}' :: rest => .ok (.table [], rest)
      | rest => (entries fuel {} rest).map fun r => (.table r.1, r.2)
    | t =>
      if Text.startsWith t "true" then .ok (.boolean true, t.drop 4)
      else if Text.startsWith t "false" then .ok (.boolean false, t.drop 5)
      else momentOrNumber t

/-- Reads the items of an array, of which there is at least one, and the bracket after them. -/
def items : Nat → Text → Except Fault (List Value × Text)
  | 0, _ => .error .malformed
  | fuel + 1, t =>
    match value fuel t with
    | .error f => .error f
    | .ok (item, rest) =>
      match skipFiller t.length rest with
      | some (']' :: rest) => .ok ([item], rest)
      | some (',' :: rest) =>
        match skipFiller t.length rest with
        | some (']' :: rest) => .ok ([item], rest)
        | some rest => (items fuel rest).map fun r => (item :: r.1, r.2)
        | none => .error .malformed
      | _ => .error .malformed

/-- Reads the entries of an inline table, of which there is at least one, and the brace after
them. -/
def entries : Nat → Inline → Text → Except Fault (Table × Text)
  | 0, _, _ => .error .malformed
  | fuel + 1, s, t =>
    match keyAndEquals t with
    | none => .error .malformed
    | some (k, rest) =>
      match value fuel rest with
      | .error f => .error f
      | .ok (v, rest) =>
        match s.add k v with
        | none => .error .malformed
        | some s =>
          match skipSpaces rest with
          | '}' :: rest => .ok (s.table, rest)
          | ',' :: rest => entries fuel s (skipSpaces rest)
          | _ => .error .malformed

end

/-- Rounds enough for any value in a text: every second round takes a character. -/
def fuelFor (t : Text) : Nat := 2 * t.length + 2

/-! ## 3. Statements -/

/-- A document as far as it has been read. -/
structure Document where
  table : Table := []
  /-- The key of the section that entries go to. -/
  header : Key := []
  frozen : List Key := []
  declared : List Key := []
  /-- Keys made by dotted keys in this section; they count as declared when it ends. -/
  pending : List Key := []

namespace Document

/-- Ends the section. -/
def endSection (d : Document) : Document :=
  { d with declared := d.pending ++ d.declared, pending := [] }

/-- The keys under which a dotted key makes tables, within a section. -/
def openedBy (header k : Key) : List Key :=
  (List.range (k.length - 1)).map fun i => header ++ k.take (i + 1)

/-- Adds an entry. -/
def addEntry (d : Document) (k : Key) (v : Value) : Option Document :=
  let opened := openedBy d.header k
  let owner := d.header ++ k.dropLast
  if opened.any d.declared.contains || covers d.frozen owner then none
  else
    (Table.update true (Table.insertNew (k.getLastD []) v) owner d.table).map fun table =>
      { d with
        table
        pending := opened ++ d.pending
        frozen := if v.isCompound then (d.header ++ k) :: d.frozen else d.frozen }

/-- Starts the section of a table. -/
def openTable (d : Document) (k : Key) : Option Document :=
  if d.declared.contains k || covers d.frozen k then none
  else
    (Table.update true some k d.table).map fun table =>
      { d with table, header := k, declared := k :: d.declared }

/-- Starts the section of a new item of an array of tables. -/
def openItem (d : Document) (k : Key) : Option Document :=
  if covers d.frozen k then none
  else
    (Table.update true (Table.appendTable (k.getLastD [])) k.dropLast d.table).map fun table =>
      { d with
        table
        header := k
        frozen := d.frozen.filter fun f => !k.isPrefixOf f
        declared := k :: d.declared.filter fun f => !k.isPrefixOf f }

/-- Reads one statement, if there is one on the line. -/
def statement (d : Document) (t : Text) : Except Fault (Document × Text) :=
  match t with
  | [] => .ok (d, [])
  | '\n' :: _ | '#' :: _ => .ok (d, t)
  | '[' :: '[' :: rest =>
    match key (t.length + 1) (skipSpaces rest) with
    | some (k, ']' :: ']' :: rest) =>
      orMalformed ((d.endSection.openItem k).map fun d => (d, rest))
    | _ => .error .malformed
  | '[' :: rest =>
    match key (t.length + 1) (skipSpaces rest) with
    | some (k, ']' :: rest) => orMalformed ((d.endSection.openTable k).map fun d => (d, rest))
    | _ => .error .malformed
  | t =>
    match keyAndEquals t with
    | none => .error .malformed
    | some (k, rest) =>
      match value (fuelFor rest) rest with
      | .error f => .error f
      | .ok (v, rest) => orMalformed ((d.addEntry k v).map fun d => (d, rest))

/-- Reads the statements of a text, in at most so many lines. -/
def statements : Nat → Document → Text → Except Fault Document
  | 0, _, _ => .error .malformed
  | lines + 1, d, t =>
    match d.statement (skipSpaces t) with
    | .error f => .error f
    | .ok (d, rest) =>
      match skipComment (skipSpaces rest) with
      | none => .error .malformed
      | some [] => .ok d
      | some ('\n' :: rest) => statements lines d rest
      | some _ => .error .malformed

end Document

/-- The text with each carriage return before a line feed dropped. -/
def unifyLineEnds : Text → Text
  | '\r' :: '\n' :: rest => '\n' :: unifyLineEnds rest
  | c :: rest => c :: unifyLineEnds rest
  | [] => []

/-- The table that a document writes. -/
def parse (t : Text) : Except Fault Table :=
  let t := unifyLineEnds t
  (Document.statements (t.length + 1) {} t).map Document.table

end InlineMarkup.Toml
