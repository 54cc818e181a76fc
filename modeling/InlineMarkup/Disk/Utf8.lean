import InlineMarkup.Text.Basic

/-!
# UTF-8

Texts as bytes.  The first byte of a character says how many bytes follow and, for some of
them, narrows what the second byte may be; so overlong forms, surrogates and numbers past the
last character are refused at their second byte.

A fault names the bytes that could not be read: those from the first byte of the character up to
the one that does not fit.
-/

namespace InlineMarkup.Utf8

/-! ## 1. Writing -/

/-- The bytes of a text. -/
def encode (t : Text) : List UInt8 := t.flatMap String.utf8EncodeChar

/-- The number of bytes of a text. -/
def size (t : Text) : Nat := t.foldr (fun c n => c.utf8Size + n) 0

/-! ## 2. Faults -/

/-- Why bytes cannot be read. -/
inductive Reason where
  /-- No character starts with the byte. -/
  | startByte
  /-- A byte that should go on with the character does not. -/
  | continuationByte
  /-- The bytes end within a character. -/
  | endOfData
deriving DecidableEq, Repr

/-- A fault: the reason, the first byte of the character, where it stands, and how many bytes
are concerned. -/
structure Fault where
  reason : Reason
  first : UInt8
  position : Nat
  size : Nat
deriving DecidableEq, Repr

/-- The wording of a reason. -/
def Reason.phrase : Reason → Text
  | startByte => "invalid start byte"
  | continuationByte => "invalid continuation byte"
  | endOfData => "unexpected end of data"

/-- Two lower-case hexadecimal digits. -/
def hexByte (b : UInt8) : Text :=
  Nat.toDigits 16 (b.toNat / 16) ++ Nat.toDigits 16 (b.toNat % 16)

/-- The wording of a fault. -/
def Fault.message (f : Fault) : Text :=
  "'utf-8' codec can't decode " ++
    (if f.size = 1 then "byte 0x" ++ hexByte f.first ++ " in position " ++ Text.ofNat f.position
      else "bytes in position " ++ Text.ofNat f.position ++ "-" ++
        Text.ofNat (f.position + f.size - 1)) ++
    ": " ++ f.reason.phrase

/-! ## 3. Reading -/

/-- What the first byte of a character says: how many bytes follow, the bits it brings, and the
least and the greatest second byte. -/
structure Lead where
  following : Nat
  bits : Nat
  low : Nat
  high : Nat

/-- Reads a first byte. -/
def lead? (b : UInt8) : Option Lead :=
  let n := b.toNat
  if n < 0x80 then some ⟨0, n, 0x80, 0xBF⟩
  else if n < 0xC2 then none
  else if n < 0xE0 then some ⟨1, n - 0xC0, 0x80, 0xBF⟩
  else if n < 0xF0 then
    some ⟨2, n - 0xE0, if n = 0xE0 then 0xA0 else 0x80, if n = 0xED then 0x9F else 0xBF⟩
  else if n < 0xF5 then
    some ⟨3, n - 0xF0, if n = 0xF0 then 0x90 else 0x80, if n = 0xF4 then 0x8F else 0xBF⟩
  else none

/-- Reads the following bytes of a character, of which `taken` bytes have been read, and gives
its number; or else the reason why not and the number of bytes read by then. -/
def following (taken low high bits : Nat) : Nat → List UInt8 → Except (Reason × Nat) Nat
  | 0, _ => .ok bits
  | _ + 1, [] => .error (.endOfData, taken)
  | n + 1, b :: rest =>
    if low ≤ b.toNat ∧ b.toNat ≤ high then
      following (taken + 1) 0x80 0xBF (bits * 64 + b.toNat % 64) n rest
    else .error (.continuationByte, taken)

/-- Reads bytes, the first of which stands at `position`. -/
def decodeFrom (position : Nat) (bytes : List UInt8) : Except Fault Text :=
  match bytes with
  | [] => .ok []
  | b :: rest =>
    match lead? b with
    | none => .error ⟨.startByte, b, position, 1⟩
    | some l =>
      match following 1 l.low l.high l.bits l.following rest with
      | .error (reason, size) => .error ⟨reason, b, position, size⟩
      | .ok n =>
        match decodeFrom (position + 1 + l.following) (rest.drop l.following) with
        | .ok t => .ok (Char.ofNat n :: t)
        | .error f => .error f
termination_by bytes.length
decreasing_by exact Text.length_drop_lt_length_cons ..

/-- The text that bytes write. -/
def decode (bytes : List UInt8) : Except Fault Text := decodeFrom 0 bytes

end InlineMarkup.Utf8
