/-
Reading JSON.  The reader takes what the grammar allows and also the number names NaN,
Infinity and -Infinity; a fault carries what was left to read where it lies, which places it.
Every step is bounded by the length of the text.
-/
import UsageReport.Json.Basic
import UsageReport.Text.Digit

namespace UsageReport.Json

open Text (CodePoint)

/-- Why a text is no JSON. -/
inductive Mistake
  | value
  | propertyName
  | colon
  | comma
  | unterminated
  | control
  | escape
  | unicodeEscape
  | extraData
  | byteOrderMark
  deriving DecidableEq, Repr

def Mistake.wording : Mistake → String
  | .value => "Expecting value"
  | .propertyName => "Expecting property name enclosed in double quotes"
  | .colon => "Expecting ':' delimiter"
  | .comma => "Expecting ',' delimiter"
  | .unterminated => "Unterminated string starting at"
  | .control => "Invalid control character at"
  | .escape => "Invalid \\escape"
  | .unicodeEscape => "Invalid \\uXXXX escape"
  | .extraData => "Extra data"
  | .byteOrderMark => "Unexpected UTF-8 BOM (decode using utf-8-sig)"

/-- Why reading stopped. -/
inductive ReadError
  /-- A mistake, and the text from the place of the mistake on. -/
  | mistake (kind : Mistake) (rest : List CodePoint)
  /-- A whole number with more digits than are read. -/
  | tooLong (digits : Nat)
  deriving DecidableEq, Repr

/-- A reader's answer: what it read and what is left. -/
abbrev Read (α : Type) := Except ReadError (α × List CodePoint)

/-- The code points between the parts of a document. -/
def isSpace : CodePoint → Bool
  | .char c => c == ' ' || c == '\t' || c == '\n' || c == '\r'
  | .surrogate _ => false

/-- A text without the space that begins it. -/
def skipSpace (cs : List CodePoint) : List CodePoint := cs.dropWhile isSpace

/-- The most digits that a whole number may have. -/
def digitLimit : Nat := 4300

/-- The meaning of the code point after a backslash, `u` apart. -/
def simpleEscape? : CodePoint → Option Char
  | .char '"' => some '"'
  | .char '\\' => some '\\'
  | .char '/' => some '/'
  | .char 'b' => some '\x08'
  | .char 'f' => some '\x0c'
  | .char 'n' => some '\n'
  | .char 'r' => some '\r'
  | .char 't' => some '\t'
  | _ => none

/-- The worth of a hexadecimal digit. -/
def hexDigit? (p : CodePoint) : Option Nat := p.char?.bind Text.hexDigit?

/-- The number that four hexadecimal digits spell. -/
def hexFour? (a b c d : CodePoint) : Option Nat := do
  let a ← hexDigit? a
  let b ← hexDigit? b
  let c ← hexDigit? c
  let d ← hexDigit? d
  pure (((a * 16 + b) * 16 + c) * 16 + d)

def isHighHalf (n : Nat) : Bool := 0xD800 ≤ n && n < 0xDC00

def isLowHalf (n : Nat) : Bool := 0xDC00 ≤ n && n < 0xE000

/-- The code point of a sixteen-bit unit. -/
def unitPoint (n : Nat) : CodePoint :=
  if isHighHalf n || isLowHalf n then .surrogate n else .char (Char.ofNat n)

/-- The character of a surrogate pair. -/
def pairPoint (high low : Nat) : CodePoint :=
  .char (Char.ofNat (0x10000 + (high - 0xD800) * 0x400 + (low - 0xDC00)))

/-- Reads four hexadecimal digits.  Something must follow them. -/
def readHex? : List CodePoint → Option (Nat × List CodePoint)
  | a :: b :: c :: d :: next :: rest => (hexFour? a b c d).map fun n => (n, next :: rest)
  | _ => none

/-- Reads what follows a backslash and a `u`, four hexadecimal digits.  After the first half of
a pair, an escape that spells the second half joins it. -/
def readUnit (fromU afterU : List CodePoint) : Read CodePoint :=
  match readHex? afterU with
  | none => .error (.mistake .unicodeEscape fromU)
  | some (high, rest) =>
    if isHighHalf high then
      match rest with
      | .char '\\' :: .char 'u' :: more =>
        match readHex? more with
        | none => .error (.mistake .unicodeEscape (.char 'u' :: more))
        | some (low, after) =>
          if isLowHalf low then .ok (pairPoint high low, after) else .ok (unitPoint high, rest)
      | _ => .ok (unitPoint high, rest)
    else .ok (unitPoint high, rest)

def isControl : CodePoint → Bool
  | .char c => c.toNat < 32
  | .surrogate _ => false

/-- Reads the code points of a text after its opening quote.  `start` is the text from that
quote on, and `done` holds the code points read so far, the last one first. -/
def readText (start : List CodePoint) : Nat → List CodePoint → List CodePoint →
    Read (List CodePoint)
  | 0, _, _ => .error (.mistake .unterminated start)
  | _ + 1, _, [] => .error (.mistake .unterminated start)
  | fuel + 1, done, p :: rest =>
    if p = .char '"' then .ok (done.reverse, rest)
    else if p = .char '\\' then
      match rest with
      | [] => .error (.mistake .unterminated start)
      | .char 'u' :: more =>
        match readUnit rest more with
        | .error e => .error e
        | .ok (point, after) => readText start fuel (point :: done) after
      | e :: more =>
        match simpleEscape? e with
        | some x => readText start fuel (.char x :: done) more
        | none => .error (.mistake .escape (p :: rest))
    else if isControl p then .error (.mistake .control (p :: rest))
    else readText start fuel (p :: done) rest

/-- A number as it is spelled. -/
structure Numeral where
  negative : Bool
  /-- The digits before the point. -/
  whole : List Char
  fraction : Option (List Char)
  /-- The sign and the digits of the exponent, if there is one. -/
  exponent : Option (Bool × List Char)

/-- The number that ASCII digits spell. -/
def digitsValue (ds : List Char) : Nat := ds.foldl (fun n d => n * 10 + (d.toNat - 48)) 0

def spanDigits (cs : List Char) : List Char × List Char :=
  (cs.takeWhile Char.isDigit, cs.dropWhile Char.isDigit)

/-- Reads a point and digits, if both are there. -/
def readFraction (cs : List Char) : Option (List Char) × List Char :=
  match cs with
  | '.' :: rest =>
    match spanDigits rest with
    | ([], _) => (none, cs)
    | (ds, more) => (some ds, more)
  | _ => (none, cs)

/-- Reads an exponent, if its mark, its sign and a digit are there. -/
def readExponent (cs : List Char) : Option (Bool × List Char) × List Char :=
  match cs with
  | e :: rest =>
    if e = 'e' ∨ e = 'E' then
      let (negative, rest) := match rest with
        | '-' :: more => (true, more)
        | '+' :: more => (false, more)
        | _ => (false, rest)
      match spanDigits rest with
      | ([], _) => (none, cs)
      | (ds, more) => (some (negative, ds), more)
    else (none, cs)
  | [] => (none, cs)

/-- Reads the digits before the point: one zero, or digits that begin with another one. -/
def readWhole : List Char → Option (List Char × List Char)
  | '0' :: rest => some (['0'], rest)
  | cs =>
    match spanDigits cs with
    | ([], _) => none
    | (ds, rest) => some (ds, rest)

/-- Reads a number as it is spelled. -/
def readNumeral? (cs : List Char) : Option (Numeral × List Char) := do
  let (negative, cs) := match cs with
    | '-' :: rest => (true, rest)
    | _ => (false, cs)
  let (whole, cs) ← readWhole cs
  let (fraction, cs) := readFraction cs
  let (exponent, cs) := readExponent cs
  pure (⟨negative, whole, fraction, exponent⟩, cs)

/-- The document that a spelled number stands for: a whole number, unless it has a fraction
or an exponent. -/
def Numeral.document (n : Numeral) : Except ReadError Document :=
  match n.fraction, n.exponent with
  | none, none =>
    if digitLimit < n.whole.length then .error (.tooLong n.whole.length)
    else
      let size : Int := digitsValue n.whole
      .ok (.int (if n.negative then -size else size))
  | _, _ =>
    let digits := n.whole ++ n.fraction.getD []
    let power : Int := match n.exponent with
      | none => 0
      | some (negative, ds) => if negative then -(digitsValue ds : Int) else digitsValue ds
    .ok (.float (Decimal.ofScientific n.negative (digitsValue digits)
      (power - (n.fraction.getD []).length)))

/-- A positive infinity, a negative one, and what is no number. -/
def infinity : Float := Decimal.nearest false (Decimal.pow10 400) 1

def minusInfinity : Float := Decimal.nearest true (Decimal.pow10 400) 1

def notANumber : Float := Float.ofBits 0x7FF8000000000000

/-- Whether a character may stand in a number. -/
def isNumeric (c : Char) : Bool :=
  c.isDigit || c == '-' || c == '+' || c == '.' || c == 'e' || c == 'E'

/-- The longest run of characters that may stand in a number. -/
def spanNumeric : List CodePoint → List Char × List CodePoint
  | .char c :: rest =>
    if isNumeric c then (c :: (spanNumeric rest).1, (spanNumeric rest).2)
    else ([], .char c :: rest)
  | rest => ([], rest)

/-- Reads a number, if the text begins with one. -/
def readNumber? (cs : List CodePoint) : Option (Numeral × List CodePoint) :=
  (readNumeral? (spanNumeric cs).1).map fun answer =>
    (answer.1, answer.2.map .char ++ (spanNumeric cs).2)

/-- The documents that are spelled as a word, with their words. -/
def words : List (List CodePoint × Document) :=
  [(Text.points "null", .null), (Text.points "true", .bool true),
    (Text.points "false", .bool false), (Text.points "NaN", .float notANumber),
    (Text.points "Infinity", .float infinity), (Text.points "-Infinity", .float minusInfinity)]

/-- Reads a word, if the text begins with one. -/
def readWord? (cs : List CodePoint) : Option (Document × List CodePoint) :=
  (words.find? (fun w => w.1.isPrefixOf cs)).map fun w => (w.2, cs.drop w.1.length)

mutual

/-- Reads one document; `fuel` bounds the work left. -/
def readDocument : Nat → List CodePoint → Read Document
  | 0, cs => .error (.mistake .value cs)
  | fuel + 1, cs =>
    match cs with
    | .char '"' :: rest =>
      match readText cs (rest.length + 1) [] rest with
      | .error e => .error e
      | .ok (s, rest) => .ok (.text s, rest)
    | .char '\x7b' :: rest =>
      match skipSpace rest with
      | .char '\x7d' :: more => .ok (.object [], more)
      | cs =>
        match readMembers fuel cs with
        | .error e => .error e
        | .ok (members, rest) => .ok (.object members, rest)
    | .char '[' :: rest =>
      match skipSpace rest with
      | .char ']' :: more => .ok (.array [], more)
      | cs =>
        match readElements fuel cs with
        | .error e => .error e
        | .ok (xs, rest) => .ok (.array xs, rest)
    | _ =>
      match readWord? cs with
      | some answer => .ok answer
      | none =>
        match readNumber? cs with
        | none => .error (.mistake .value cs)
        | some (numeral, rest) =>
          match numeral.document with
          | .error e => .error e
          | .ok d => .ok (d, rest)

/-- Reads the elements of an array up to its closing bracket. -/
def readElements : Nat → List CodePoint → Read (List Document)
  | 0, cs => .error (.mistake .value cs)
  | fuel + 1, cs =>
    match readDocument fuel cs with
    | .error e => .error e
    | .ok (d, rest) =>
      match skipSpace rest with
      | .char ']' :: more => .ok ([d], more)
      | .char ',' :: more =>
        match readElements fuel (skipSpace more) with
        | .error e => .error e
        | .ok (ds, rest) => .ok (d :: ds, rest)
      | cs => .error (.mistake .comma cs)

/-- Reads the members of an object up to its closing brace. -/
def readMembers : Nat → List CodePoint → Read (List (List CodePoint × Document))
  | 0, cs => .error (.mistake .value cs)
  | fuel + 1, cs =>
    match cs with
    | .char '"' :: rest =>
      match readText cs (rest.length + 1) [] rest with
      | .error e => .error e
      | .ok (name, rest) =>
        match skipSpace rest with
        | .char ':' :: more =>
          match readDocument fuel (skipSpace more) with
          | .error e => .error e
          | .ok (d, rest) =>
            match skipSpace rest with
            | .char '\x7d' :: more => .ok ([(name, d)], more)
            | .char ',' :: more =>
              match readMembers fuel (skipSpace more) with
              | .error e => .error e
              | .ok (members, rest) => .ok ((name, d) :: members, rest)
            | cs => .error (.mistake .comma cs)
        | cs => .error (.mistake .colon cs)
    | _ => .error (.mistake .propertyName cs)

end

/-- Reads a whole text: one document with space around it, and no byte order mark. -/
def read (cs : List CodePoint) : Except ReadError Document :=
  match cs with
  | .char '\uFEFF' :: _ => .error (.mistake .byteOrderMark cs)
  | _ =>
    match readDocument (2 * cs.length + 2) (skipSpace cs) with
    | .error e => .error e
    | .ok (d, rest) =>
      match skipSpace rest with
      | [] => .ok d
      | rest => .error (.mistake .extraData rest)

/-- The place of a mistake in words: line, column, and characters before it. -/
def placeText (text rest : List CodePoint) : String :=
  let before := text.take (text.length - rest.length)
  let line := before.countP (· == .char '\n') + 1
  let column := (before.reverse.takeWhile (· != .char '\n')).length + 1
  ": line " ++ toString line ++ " column " ++ toString column ++ " (char " ++
    toString before.length ++ ")"

end UsageReport.Json
