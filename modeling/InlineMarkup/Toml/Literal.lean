import InlineMarkup.Toml.Value

/-!
# TOML strings, numbers and moments

The readers for values without parts.  A reader takes the text at a value's head and gives the
value and the text after it, or nothing when there is no such value.  A decimal integer may have
too many digits to be read, which is a fault of its own.
-/

namespace InlineMarkup.Toml

/-! ## 1. Characters -/

/-- A blank within a line. -/
def isSpace (c : Char) : Bool := c == ' ' || c == '\t'

/-- A blank within an array. -/
def isSpaceOrNewline (c : Char) : Bool := isSpace c || c == '\n'

/-- A control character of ASCII, except the tab. -/
def isControl (c : Char) : Bool := (c.toNat < 32 && c != '\t') || c.toNat == 127

/-- A decimal digit of ASCII. -/
def isDigit (c : Char) : Bool := '0' ≤ c && c ≤ '9'

/-- A hexadecimal digit of ASCII. -/
def isHexDigit (c : Char) : Bool :=
  isDigit c || ('a' ≤ c && c ≤ 'f') || ('A' ≤ c && c ≤ 'F')

/-- A character of a bare key. -/
def isBareKeyChar (c : Char) : Bool :=
  isDigit c || ('a' ≤ c && c ≤ 'z') || ('A' ≤ c && c ≤ 'Z') || c == '-' || c == '_'

/-- The value of a digit up to `f`. -/
def digitValue (c : Char) : Nat :=
  if isDigit c then c.toNat - 48 else if 'a' ≤ c then c.toNat - 87 else c.toNat - 55

/-- The number that digits write in a base; underscores between them do not count. -/
def number (base : Nat) (digits : Text) : Nat :=
  (digits.filter (· != '_')).foldl (fun n c => n * base + digitValue c) 0

/-! ## 2. Strings -/

/-- What an escape stands for, given the text after the backslash, and how many characters of
that text belong to it.  In a string of several lines a backslash at the end of a line takes the
line end and all blanks after it away. -/
def escape (multiline : Bool) : Text → Option (Text × Nat)
  | [] => none
  | c :: rest =>
    if multiline && c == '\n' then
      some ([], 1 + (rest.takeWhile isSpaceOrNewline).length)
    else if multiline && isSpace c then
      let blanks := (rest.takeWhile isSpace).length
      match rest.drop blanks with
      | [] => some ([], 1 + blanks)
      | d :: after =>
        if d = '\n' then some ([], 2 + blanks + (after.takeWhile isSpaceOrNewline).length) else none
    else
      match c with
      | 'b' => some (['\x08'], 1)
      | 't' => some (['\t'], 1)
      | 'n' => some (['\n'], 1)
      | 'f' => some (['\x0c'], 1)
      | 'r' => some (['\r'], 1)
      | '"' => some (['"'], 1)
      | '\\' => some (['\\'], 1)
      | 'u' => codePoint 4 rest
      | 'U' => codePoint 8 rest
      | _ => none
where
  /-- A character by its number, in so many hexadecimal digits. -/
  codePoint (size : Nat) (t : Text) : Option (Text × Nat) :=
    let digits := t.take size
    let n := number 16 digits
    if digits.length = size ∧ digits.all isHexDigit ∧ n.isValidChar then
      some ([Char.ofNat n], 1 + size)
    else none

/-- The rest of a string in double quotes, and the text after it. -/
def basicString (multiline : Bool) (t : Text) : Option (Text × Text) :=
  match t with
  | [] => none
  | c :: rest =>
    if c = '"' then
      if !multiline then some ([], rest)
      else if Text.startsWith rest ['"', '"'] then some ([], rest.drop 2)
      else (basicString multiline rest).map fun r => (c :: r.1, r.2)
    else if c = '\\' then
      match escape multiline rest with
      | none => none
      | some (content, size) =>
        (basicString multiline (rest.drop size)).map fun r => (content ++ r.1, r.2)
    else if isControl c && !(multiline && c == '\n') then none
    else (basicString multiline rest).map fun r => (c :: r.1, r.2)
termination_by t.length
decreasing_by
  · exact Nat.lt_succ_self _
  · exact Text.length_drop_lt_length_cons ..
  · exact Nat.lt_succ_self _

/-- The rest of a literal string on one line, and the text after it. -/
def literalString : Text → Option (Text × Text)
  | [] => none
  | c :: rest =>
    if c = '\'' then some ([], rest)
    else if isControl c then none
    else (literalString rest).map fun r => (c :: r.1, r.2)

/-- The rest of a literal string of several lines, and the text after it. -/
def literalBlock : Text → Option (Text × Text)
  | [] => none
  | '\'' :: '\'' :: '\'' :: after => some ([], after)
  | c :: rest =>
    if isControl c && c != '\n' then none
    else (literalBlock rest).map fun r => (c :: r.1, r.2)

/-- Up to two quotes right after a string of several lines belong to it. -/
def withLastQuotes (quote : Char) (r : Text × Text) : Text × Text :=
  let extra := min 2 (r.2.takeWhile (· == quote)).length
  (r.1 ++ List.replicate extra quote, r.2.drop extra)

/-- A line end right at the start of a string of several lines does not count. -/
def dropFirstNewline : Text → Text
  | '\n' :: rest => rest
  | t => t

/-- Reads a string. -/
def string : Text → Option (Text × Text)
  | '"' :: '"' :: '"' :: rest =>
    (basicString true (dropFirstNewline rest)).map (withLastQuotes '"')
  | '"' :: rest => basicString false rest
  | '\'' :: '\'' :: '\'' :: rest =>
    (literalBlock (dropFirstNewline rest)).map (withLastQuotes '\'')
  | '\'' :: rest => literalString rest
  | _ => none

/-! ## 3. Numbers -/

/-- The number of characters in a run of digits, in which single underscores may stand between
digits. -/
def runLength (isIn : Char → Bool) : Text → Nat
  | [] => 0
  | c :: rest =>
    if isIn c then
      match rest with
      | '_' :: d :: after => if isIn d then 2 + runLength isIn (d :: after) else 1
      | rest => 1 + runLength isIn rest
    else 0

/-- The length of the fraction after an integer, with its point. -/
def fractionLength : Text → Nat
  | '.' :: rest =>
    match runLength isDigit rest with
    | 0 => 0
    | n => n + 1
  | _ => 0

/-- The length of an optional sign. -/
def signLength : Text → Nat
  | c :: _ => if c = '+' ∨ c = '-' then 1 else 0
  | [] => 0

/-- The length of the exponent after a number, with its letter. -/
def exponentLength : Text → Nat
  | c :: rest =>
    if c = 'e' ∨ c = 'E' then
      let sign := signLength rest
      match runLength isDigit (rest.drop sign) with
      | 0 => 0
      | n => n + sign + 1
    else 0
  | [] => 0

/-- The number of digits of a decimal integer: a zero alone, or a run that starts otherwise. -/
def decimalLength : Text → Nat
  | '0' :: _ => 1
  | t => runLength isDigit t

/-- Reads a number written in a base after a zero and a letter. -/
def basedNumber : Text → Option (Value × Text)
  | '0' :: letter :: rest =>
    let read (base : Nat) (isIn : Char → Bool) : Option (Value × Text) :=
      match runLength isIn rest with
      | 0 => none
      | n => some (.integer (number base (rest.take n)), rest.drop n)
    match letter with
    | 'x' => read 16 isHexDigit
    | 'o' => read 8 fun c => '0' ≤ c && c ≤ '7'
    | 'b' => read 2 fun c => c == '0' || c == '1'
    | _ => none
  | _ => none

/-- The decimal integer that digits write after a sign, unless there are too many digits. -/
def decimalInteger (negative : Bool) (digits : Text) : Except Fault Value :=
  let count := (digits.filter (· != '_')).length
  let n : Int := number 10 digits
  if DigitFault.mostDigits < count then .error (.digits (.reading count))
  else .ok (.integer (if negative then -n else n))

/-- Reads a decimal integer or float. -/
def decimalNumber (t : Text) : Except Fault (Value × Text) :=
  let sign := signLength t
  let digits := decimalLength (t.drop sign)
  if digits = 0 then .error .malformed
  else
    let rest := t.drop (sign + digits)
    let fraction := fractionLength rest
    let part := fraction + exponentLength (rest.drop fraction)
    if part = 0 then
      match decimalInteger (t.head? = some '-') ((t.drop sign).take digits) with
      | .error f => .error f
      | .ok v => .ok (v, rest)
    else .ok (.float (t.take (sign + digits + part)), rest.drop part)

/-- Reads an infinity or a float that is no number. -/
def specialFloat (t : Text) : Option (Value × Text) :=
  let sign := signLength t
  let word := (t.drop sign).take 3
  if word = "inf".toList ∨ word = "nan".toList then
    some (.float (t.take (sign + 3)), t.drop (sign + 3))
  else none

/-! ## 4. Moments -/

/-- Reads a number of exactly so many digits within bounds. -/
def fixedNumber (size low high : Nat) (t : Text) : Option (Nat × Text) :=
  let digits := t.take size
  let n := number 10 digits
  if digits.length = size ∧ digits.all isDigit ∧ low ≤ n ∧ n ≤ high then some (n, t.drop size)
  else none

/-- Reads one character. -/
def mark (c : Char) : Text → Option Text
  | [] => none
  | d :: rest => if d = c then some rest else none

/-- The text after a time of day. -/
def afterTime (t : Text) : Option Text := do
  let (_, t) ← fixedNumber 2 0 23 t
  let t ← mark ':' t
  let (_, t) ← fixedNumber 2 0 59 t
  let t ← mark ':' t
  let (_, t) ← fixedNumber 2 0 59 t
  match t with
  | '.' :: rest =>
    let digits := (rest.takeWhile isDigit).length
    return if digits = 0 then t else rest.drop digits
  | _ => return t

/-- The text after an optional offset from universal time. -/
def afterOffset (t : Text) : Text :=
  match t with
  | [] => []
  | c :: rest =>
    if c = 'Z' ∨ c = 'z' then rest
    else if c = '+' ∨ c = '-' then
      let offset : Option Text := do
        let (_, t) ← fixedNumber 2 0 23 rest
        let t ← mark ':' t
        let (_, t) ← fixedNumber 2 0 59 t
        return t
      offset.getD t
    else t

/-- The year can be divided by four, and by a hundred only if also by four hundred. -/
def isLeapYear (year : Nat) : Bool := year % 4 == 0 && (year % 100 != 0 || year % 400 == 0)

/-- The number of days of a month. -/
def daysInMonth (year month : Nat) : Nat :=
  match month with
  | 2 => if isLeapYear year then 29 else 28
  | 4 | 6 | 9 | 11 => 30
  | _ => 31

/-- Reads the shape of a date. -/
def date (t : Text) : Option ((Nat × Nat × Nat) × Text) := do
  let (year, t) ← fixedNumber 4 0 9999 t
  let t ← mark '-' t
  let (month, t) ← fixedNumber 2 1 12 t
  let t ← mark '-' t
  let (day, t) ← fixedNumber 2 1 31 t
  return ((year, month, day), t)

/-- The text after an optional time of day that follows a date. -/
def afterDate : Text → Text
  | [] => []
  | c :: rest =>
    if c = 'T' ∨ c = 't' ∨ c = ' ' then
      match afterTime rest with
      | some after => afterOffset after
      | none => c :: rest
    else c :: rest

/-- What stands at the head of a text, as a moment. -/
inductive MomentShape where
  /-- No moment. -/
  | absent
  /-- A moment that does not exist. -/
  | impossible
  /-- A moment, and the text after it. -/
  | present (rest : Text)

/-- Reads a date, with a time of day or without, or a time of day. -/
def moment (t : Text) : MomentShape :=
  match date t with
  | some ((year, month, day), rest) =>
    if 1 ≤ year ∧ day ≤ daysInMonth year month then .present (afterDate rest) else .impossible
  | none =>
    match afterTime t with
    | some rest => .present rest
    | none => .absent

/-- Reads a moment or a number. -/
def momentOrNumber (t : Text) : Except Fault (Value × Text) :=
  match moment t with
  | .impossible => .error .malformed
  | .present rest => .ok (.moment (t.take (t.length - rest.length)), rest)
  | .absent =>
    match basedNumber t <|> specialFloat t with
    | some r => .ok r
    | none => decimalNumber t

end InlineMarkup.Toml
