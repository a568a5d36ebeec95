/-
Writing values as JSON.  A style fixes the separators, the indentation, whether texts are kept
to ASCII, and whether numbers that are infinite or none are allowed.  The first part of a
value that has no JSON form, in writing order, decides the failure.
-/
import UsageReport.Failure
import UsageReport.Value.Display
import UsageReport.Json.Reader

namespace UsageReport.Json

open Text (CodePoint)

/-- The choices of a JSON notation. -/
structure Style where
  /-- What stands between the parts of an array or object on one line. -/
  separator : List Char := [',', ' ']
  /-- What stands between a name and its value. -/
  afterName : List Char := [':', ' ']
  /-- How many spaces each level is indented by, if parts stand on lines of their own. -/
  indent : Option Nat := none
  /-- Whether characters outside ASCII are written as escapes. -/
  ascii : Bool := true
  /-- Whether NaN and the infinities are allowed. -/
  nonFinite : Bool := true

/-- One line, no spaces, texts as they are, finite numbers only. -/
def Style.compact : Style :=
  { separator := [','], afterName := [':'], ascii := false, nonFinite := false }

/-- One line with spaces, texts as they are. -/
def Style.line : Style := { ascii := false }

/-- Numbers as in plain text, but with JSON's names for what is no finite number. -/
def numberLayout : Decimal.Layout := { nan := "NaN", infinity := "Infinity" }

/-- The escape of a sixteen-bit unit. -/
def unitEscape (n : Nat) : List Char := '\\' :: 'u' :: Text.hexDigits 4 n

/-- The escape of a character, by two units above U+FFFF. -/
def charEscape (c : Char) : List Char :=
  if c.toNat < 0x10000 then unitEscape c.toNat
  else
    let n := c.toNat - 0x10000
    unitEscape (0xD800 + n / 0x400) ++ unitEscape (0xDC00 + n % 0x400)

/-- A character as it stands between quotes. -/
def writeChar (ascii : Bool) (c : Char) : List Char :=
  if c = '"' then ['\\', '"']
  else if c = '\\' then ['\\', '\\']
  else if c = '\n' then ['\\', 'n']
  else if c = '\r' then ['\\', 'r']
  else if c = '\t' then ['\\', 't']
  else if c = '\x08' then ['\\', 'b']
  else if c = '\x0c' then ['\\', 'f']
  else if c.toNat < 32 then unitEscape c.toNat
  else if ascii && 126 < c.toNat then charEscape c
  else [c]

/-- A text between quotes. -/
def writeText (ascii : Bool) (cs : List Char) : List Char :=
  '"' :: cs.flatMap (writeChar ascii) ++ ['"']

/-- The digits of a whole number, if they are not too many. -/
def writeInt (n : Int) : Except Failure (List Char) :=
  let ds := Decimal.digitChars n.natAbs
  if digitLimit < ds.length then .error .tooLongToWrite
  else .ok (if n < 0 then '-' :: ds else ds)

/-- A floating-point number; what is no finite one needs leave of the style. -/
def Style.writeFloat (style : Style) (x : Float) : Except Failure (List Char) :=
  match Decimal.Parts.ofFloat x with
  | .finite negative m q => .ok (numberLayout.ofParts (.finite negative m q))
  | parts => if style.nonFinite then .ok (numberLayout.ofParts parts) else .error .notFinite

def writeBool (b : Bool) : List Char := if b then "true".toList else "false".toList

/-- A code point as it stands between quotes, a lone half as an escape. -/
def escapePoint (ascii : Bool) : CodePoint → List Char
  | .char c => writeChar ascii c
  | .surrogate n => unitEscape n

/-- A text with lone halves between quotes; only as escapes can they be written. -/
def writeBroken (ascii : Bool) (points : List CodePoint) : Except Failure (List Char) :=
  match ascii, Text.unpaired? (.char '"' :: points) with
  | false, some fault => .error (.unpaired fault)
  | _, _ => .ok ('"' :: points.flatMap (escapePoint ascii) ++ ['"'])

/-- Any text between quotes, kept to ASCII. -/
def writeEscaped (points : List CodePoint) : List Char :=
  '"' :: points.flatMap (escapePoint true) ++ ['"']

/-- A text without lone halves is written as any value that holds it. -/
theorem writeEscaped_points (s : String) :
    writeEscaped (Text.points s) = writeText true s.toList := by
  simp [writeEscaped, writeText, Text.points, escapePoint, List.flatMap_map]

/-- A code point as it stands between quotes, beyond ASCII always as it is; lone halves too. -/
def writePoint : CodePoint → List CodePoint
  | .char c => (writeChar false c).map .char
  | .surrogate n => [.surrogate n]

/-- A text between quotes, escaped only where it must be. -/
def writePoints (points : List CodePoint) : List CodePoint :=
  .char '"' :: points.flatMap writePoint ++ [.char '"']

/-- A dictionary key between quotes. -/
def Style.name (style : Style) : Value → Except Failure (List Char)
  | .text s => .ok (writeText style.ascii s.toList)
  | .broken points => writeBroken style.ascii points
  | .float x => (style.writeFloat x).map (writeText style.ascii)
  | .bool b => .ok (writeText style.ascii (writeBool b))
  | .null => .ok (writeText style.ascii "null".toList)
  | .int n => (writeInt n).map (writeText style.ascii)
  | v => .error (.keyKind v.kindName)

/-- A new line, indented for a level. -/
def newLine (width level : Nat) : List Char := '\n' :: List.replicate (width * level) ' '

/-- Parts between an opening and a closing character; `level` is the depth of the parts. -/
def Style.enclose (style : Style) (level : Nat) (opening closing : Char)
    (parts : List (List Char)) : List Char :=
  if parts.isEmpty then [opening, closing]
  else match style.indent with
    | none => opening :: style.separator.intercalate parts ++ [closing]
    | some width =>
      opening :: newLine width level ++ (',' :: newLine width level).intercalate parts ++
        newLine width (level - 1) ++ [closing]

mutual

/-- The JSON text of a value at a depth. -/
def Style.write (style : Style) (level : Nat) : Value → Except Failure (List Char)
  | .null => .ok "null".toList
  | .bool b => .ok (writeBool b)
  | .int n => writeInt n
  | .float x => style.writeFloat x
  | .text s => .ok (writeText style.ascii s.toList)
  | .broken points => writeBroken style.ascii points
  | .bytes _ => .error (.valueKind "bytes")
  | .set _ => .error (.valueKind "set")
  | .list xs => do
    let parts ← Style.writeAll style (level + 1) xs
    pure (style.enclose (level + 1) '[' ']' parts)
  | .tuple xs => do
    let parts ← Style.writeAll style (level + 1) xs
    pure (style.enclose (level + 1) '[' ']' parts)
  | .dict pairs => do
    let parts ← Style.writePairs style (level + 1) pairs
    pure (style.enclose (level + 1) '\x7b' '\x7d' parts)

def Style.writeAll (style : Style) (level : Nat) :
    List Value → Except Failure (List (List Char))
  | [] => .ok []
  | x :: xs => do
    let part ← Style.write style level x
    let parts ← Style.writeAll style level xs
    pure (part :: parts)

def Style.writePairs (style : Style) (level : Nat) :
    List (Value × Value) → Except Failure (List (List Char))
  | [] => .ok []
  | (k, v) :: rest => do
    let name ← style.name k
    let value ← Style.write style level v
    let parts ← Style.writePairs style level rest
    pure ((name ++ style.afterName ++ value) :: parts)

end

def Style.text (style : Style) (v : Value) : Except Failure String :=
  (style.write 0 v).map String.ofList

end UsageReport.Json
