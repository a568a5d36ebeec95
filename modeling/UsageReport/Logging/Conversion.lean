/-
Conversions: the places of a message template.  A percent sign, perhaps the name of an argument
in parentheses, flags, a width, a precision and a letter say how an argument is written.
-/
import UsageReport.Decimal.Fixed
import UsageReport.Json.Writer
import UsageReport.Value.Numeric
import UsageReport.Value.Written

namespace UsageReport

/-- A width or a precision: a number, or that of the next argument. -/
inductive Extent
  | number (n : Int)
  | next
  deriving DecidableEq, Repr

/-- How an argument is written. -/
structure Conversion where
  /-- The name of the argument, if it is taken by name. -/
  name : Option (List Char) := none
  /-- Any of `-`, `+`, a space, `#` and `0`. -/
  flags : List Char := []
  width : Option Extent := none
  precision : Option Extent := none
  letter : Char

namespace Conversion

/-- Reads a name up to its closing parenthesis; `depth` counts those still open inside. -/
def readName : Nat → List Char → Option (List Char × List Char)
  | _, [] => none
  | depth, c :: rest =>
    if c = ')' then
      match depth with
      | 0 => some ([], rest)
      | depth + 1 => (readName depth rest).map fun r => (c :: r.1, r.2)
    else (readName (if c = '(' then depth + 1 else depth) rest).map fun r => (c :: r.1, r.2)

/-- Reads a width or a precision, if one is there. -/
def readExtent : List Char → Option Extent × List Char
  | '*' :: rest => (some .next, rest)
  | cs =>
    match Json.spanDigits cs with
    | ([], _) => (none, cs)
    | (ds, rest) => (some (.number (Json.digitsValue ds)), rest)

/-- Reads a precision; after a point it is zero if no number follows. -/
def readPrecision : List Char → Option Extent × List Char
  | '.' :: rest =>
    let (extent, rest) := readExtent rest
    (some (extent.getD (.number 0)), rest)
  | cs => (none, cs)

/-- Leaves out a mark of size, which means nothing. -/
def skipSize : List Char → List Char
  | c :: rest => if ['h', 'l', 'L'].contains c then rest else c :: rest
  | [] => []

/-- Whether a character is a flag. -/
def isFlag (c : Char) : Bool := ['-', '+', ' ', '#', '0'].contains c

/-- Reads a conversion after its percent sign, if it is complete. -/
def read (cs : List Char) : Option (Conversion × List Char) := do
  let (name, cs) ← match cs with
    | '(' :: rest => (readName 0 rest).map fun r => (some r.1, r.2)
    | _ => some (none, cs)
  let flags := cs.takeWhile isFlag
  let (width, cs) := readExtent (cs.dropWhile isFlag)
  let (precision, cs) := readPrecision cs
  match skipSize cs with
  | [] => none
  | letter :: rest => some ({ name, flags, width, precision, letter }, rest)

/-- Whether a flag is set. -/
def has (c : Conversion) (flag : Char) : Bool := c.flags.contains flag

end Conversion

/-- A written argument before it is padded. -/
structure Written where
  /-- What stands before zeros that fill up. -/
  lead : List Char := []
  body : List Char
  /-- Whether zeros may fill up. -/
  numeric : Bool := true

/-- A conversion with its numbers, apart from the argument. -/
structure Placement where
  conversion : Conversion
  width : Int
  precision : Option Nat

namespace Placement

def sign (l : Placement) (negative : Bool) : List Char :=
  if negative then ['-']
  else if l.conversion.has '+' then ['+']
  else if l.conversion.has ' ' then [' ']
  else []

/-- A text cut to the precision. -/
def cut (l : Placement) (text : List Char) : Written :=
  { body := match l.precision with
      | some n => text.take n
      | none => text
    numeric := false }

/-- A whole number in a base; the precision is its least number of digits. -/
def whole (l : Placement) (base : Nat) (mark : List Char) (n : Int) : Written :=
  { lead := l.sign (n < 0) ++ if l.conversion.has '#' then mark else []
    body := Decimal.padLeft (l.precision.getD 0) (Nat.toDigits base n.natAbs) }

/-- A floating-point number. -/
def float (l : Placement) (fashion : Decimal.Fashion) (x : Float) : Written :=
  match Decimal.Parts.ofFloat x with
  | .nan => { lead := l.sign false, body := "nan".toList }
  | .infinite negative => { lead := l.sign negative, body := "inf".toList }
  | .finite negative m q =>
    { lead := l.sign negative
      body := fashion.write (l.conversion.has '#') (l.precision.getD 6) m q }

/-- A text with all beyond ASCII escaped. -/
def escape (text : List Char) : List Char :=
  text.flatMap fun c => if c.toNat < 128 then [c] else escapeCode c.toNat

/-- Whether a whole number has few enough digits to be written. -/
def isShown (n : Int) : Bool := (Json.writeInt n).isOk

/-- The plain text of an argument, if it can be written and holds no lone halves. -/
def plain? (v : Value) : Option (List Char) := v.written.toOption.bind Text.characters?

/-- The structural text of an argument, if it can be written. -/
def shown? (v : Value) : Option (List Char) := v.shown.toOption.map String.toList

/-- The whole number that a decimal conversion writes. -/
def decimal? (v : Value) : Option Int :=
  match v with
  | .bool _ | .int _ | .float _ => v.toInt.toOption.filter isShown
  | _ => none

/-- The character that an argument is: itself, or that of its number. -/
def character? (v : Value) : Option Char :=
  match v with
  | .text s => match s.toList with
    | [c] => some c
    | _ => none
  | v => do
    let n ← v.whole?
    if 0 ≤ n ∧ n.toNat.isValidChar then some (Char.ofNat n.toNat) else none

/-- The floating-point number that an argument counts as. -/
def number? (v : Value) : Option Float :=
  match v with
  | .float x => some x
  | v => v.whole?.bind Decimal.ofInt?

/-- The fashion of a letter in lower case. -/
def fashion? : Char → Option Decimal.Fashion
  | 'e' => some .scientific
  | 'f' => some .fixed
  | 'g' => some .general
  | _ => none

/-- What a letter makes of an argument, if it can. -/
def written? (l : Placement) (v : Value) : Option Written :=
  let letter := l.conversion.letter
  if letter = 's' then (plain? v).map l.cut
  else if letter = 'r' then (shown? v).map l.cut
  else if letter = 'a' then (shown? v).map fun cs => l.cut (escape cs)
  else if letter = 'd' ∨ letter = 'i' ∨ letter = 'u' then (decimal? v).map (l.whole 10 [])
  else if letter = 'o' then v.whole?.map (l.whole 8 ['0', 'o'])
  else if letter = 'x' ∨ letter = 'X' then v.whole?.map (l.whole 16 ['0', 'x'])
  else if letter = 'c' then
    (character? v).map fun c => { body := [c], numeric := false }
  else do
    let fashion ← fashion? letter.toLower
    (number? v).map (l.float fashion)

/-- A written argument brought to its width. -/
def pad (l : Placement) (w : Written) : List Char :=
  let missing := l.width.natAbs - (w.lead.length + w.body.length)
  if l.width < 0 ∨ l.conversion.has '-' then
    w.lead ++ w.body ++ List.replicate missing ' '
  else if w.numeric && l.conversion.has '0' then
    w.lead ++ List.replicate missing '0' ++ w.body
  else List.replicate missing ' ' ++ w.lead ++ w.body

/-- An argument in full; capital letters write in capitals. -/
def text? (l : Placement) (v : Value) : Option (List Char) :=
  (l.written? v).map fun w =>
    let cs := l.pad w
    if l.conversion.letter.isUpper then cs.map Char.toUpper else cs

end Placement

end UsageReport
