/-
Reading bytes as UTF-8.  The first byte of a character fixes how many continuation bytes
follow and which range the first of them must lie in; reading stops at the first byte that
breaks this and tells where and why.
-/

namespace UsageReport.Text

/-- Why bytes are no UTF-8 text. -/
inductive Utf8Reason
  | startByte
  | continuationByte
  | endOfData
  deriving DecidableEq, Repr

/-- The first fault of a byte sequence: where it starts, how many bytes it spans, and which
byte begins it. -/
structure Utf8Fault where
  position : Nat
  length : Nat
  byte : Nat
  reason : Utf8Reason
  deriving DecidableEq, Repr

/-- What a first byte announces. -/
structure Utf8Lead where
  /-- How many continuation bytes follow. -/
  following : Nat
  /-- The bits of the character that the first byte holds. -/
  bits : Nat
  /-- The least value of the first continuation byte. -/
  low : Nat
  /-- The greatest value of the first continuation byte. -/
  high : Nat

/-- The meaning of a first byte, if it can begin a character. -/
def utf8Lead? (b : Nat) : Option Utf8Lead :=
  if b < 0x80 then some ⟨0, b, 0, 0⟩
  else if b < 0xC2 then none
  else if b < 0xE0 then some ⟨1, b - 0xC0, 0x80, 0xBF⟩
  else if b < 0xF0 then
    some ⟨2, b - 0xE0, if b = 0xE0 then 0xA0 else 0x80, if b = 0xED then 0x9F else 0xBF⟩
  else if b < 0xF5 then
    some ⟨3, b - 0xF0, if b = 0xF0 then 0x90 else 0x80, if b = 0xF4 then 0x8F else 0xBF⟩
  else none

/-- Reads `n` continuation bytes; `taken` counts the bytes of this character read so far. -/
def utf8Continue (low high : Nat) : Nat → Nat → Nat → List UInt8 →
    Except (Nat × Utf8Reason) (Nat × List UInt8)
  | 0, code, _, bytes => .ok (code, bytes)
  | _ + 1, _, taken, [] => .error (taken, .endOfData)
  | n + 1, code, taken, b :: rest =>
    if low ≤ b.toNat ∧ b.toNat ≤ high then
      utf8Continue 0x80 0xBF n (code * 64 + (b.toNat - 0x80)) (taken + 1) rest
    else .error (taken, .continuationByte)

/-- Reads one character off the front. -/
def utf8Next (b : UInt8) (rest : List UInt8) :
    Except (Nat × Utf8Reason) (Char × List UInt8) :=
  match utf8Lead? b.toNat with
  | none => .error (1, .startByte)
  | some lead =>
    (utf8Continue lead.low lead.high lead.following lead.bits 1 rest).map
      fun (code, rest) => (Char.ofNat code, rest)

/-- Reads characters until the bytes end; `fuel` bounds their number, `done` holds those read. -/
def utf8Loop : Nat → Nat → List Char → List UInt8 → Except Utf8Fault (List Char)
  | 0, _, done, _ => .ok done.reverse
  | _ + 1, _, done, [] => .ok done.reverse
  | fuel + 1, position, done, b :: rest =>
    match utf8Next b rest with
    | .ok (c, rest') =>
      utf8Loop fuel (position + (rest.length + 1 - rest'.length)) (c :: done) rest'
    | .error (length, reason) => .error ⟨position, length, b.toNat, reason⟩

/-- The text that bytes spell, or their first fault. -/
def utf8Decode (bytes : List UInt8) : Except Utf8Fault (List Char) :=
  utf8Loop bytes.length 0 [] bytes

end UsageReport.Text
