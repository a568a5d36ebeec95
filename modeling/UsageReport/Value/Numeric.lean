/-
Numbers out of values.  A text is read without the blanks around it: a sign, decimal digits of
any script with single underscores between them, and for floating-point numbers a point, an
exponent or a word.  Anything else is refused with a failure that shows it.
-/
import UsageReport.Failure
import UsageReport.Value.Display
import UsageReport.Text.Blank
import UsageReport.Json.Reader

namespace UsageReport

namespace Numeral

/-- Blanks around a number; the four information separators are none here. -/
def isBlank (c : Char) : Bool := Text.isBlank c && !(28 ≤ c.toNat && c.toNat ≤ 31)

/-- A text with every decimal digit in ASCII. -/
def foldDigits (cs : List Char) : List Char :=
  cs.map fun c => match Text.decimalDigit? c with
    | some d => Char.ofNat (48 + d)
    | none => c

/-- Digits without the underscores; each must stand between two digits. -/
def joinDigits? : List Char → Option (List Char)
  | [] => none
  | [c] => if c.isDigit then some [c] else none
  | c :: '_' :: rest => if c.isDigit then (joinDigits? rest).map (c :: ·) else none
  | c :: rest => if c.isDigit then (joinDigits? rest).map (c :: ·) else none

/-- A sign, if the text begins with one, and what follows. -/
def splitSign : List Char → Bool × List Char
  | '-' :: rest => (true, rest)
  | '+' :: rest => (false, rest)
  | cs => (false, cs)

/-- A text without its underscores, if each of them stands between two digits. -/
def dropUnderscores? : Option Char → List Char → Option (List Char)
  | _, [] => some []
  | before, '_' :: rest =>
    match before, rest with
    | some b, c :: _ =>
      if b.isDigit && c.isDigit then dropUnderscores? (some '_') rest else none
    | _, _ => none
  | _, c :: rest => (dropUnderscores? (some c) rest).map (c :: ·)

def lower (cs : List Char) : List Char := cs.map Char.toLower

/-- The words that stand for what is no finite number. -/
def word? (negative : Bool) (cs : List Char) : Option Float :=
  let w := String.ofList (lower cs)
  if w == "inf" || w == "infinity" then
    some (if negative then Json.minusInfinity else Json.infinity)
  else if w == "nan" then some Json.notANumber
  else none

/-- A decimal with digits before or after an optional point and an optional exponent. -/
def decimal? (negative : Bool) (cs : List Char) : Option Float :=
  let (whole, rest) := Json.spanDigits cs
  let (fraction, rest) := match rest with
    | '.' :: more => Json.spanDigits more
    | _ => ([], rest)
  let (exponent, rest) := Json.readExponent rest
  if (whole.isEmpty && fraction.isEmpty) || !rest.isEmpty then none
  else
    let power : Int := match exponent with
      | none => 0
      | some (down, ds) =>
        let size : Int := Json.digitsValue ds
        if down then -size else size
    some (Decimal.ofScientific negative (Json.digitsValue (whole ++ fraction))
      (power - fraction.length))

/-- A signed floating-point number without underscores or blanks. -/
def float? (cs : List Char) : Option Float :=
  let (negative, rest) := splitSign cs
  word? negative rest <|> decimal? negative rest

end Numeral

/-- The whole number that a text spells.  Its length is looked at before what follows the
digits is, but after the underscores among them are. -/
def intOfText (shown : String) (cs : List Char) : Except Failure Int :=
  let (negative, rest) := Numeral.splitSign (Text.trimBy Numeral.isBlank (Numeral.foldDigits cs))
  let run := rest.takeWhile fun c => c.isDigit || c == '_'
  match Numeral.joinDigits? run with
  | none => .error (.intLiteral shown)
  | some ds =>
    if Json.digitLimit < ds.length then .error (.tooLongToRead ds.length)
    else if run.length < rest.length then .error (.intLiteral shown)
    else
      let size : Int := Json.digitsValue ds
      .ok (if negative then -size else size)

def floatOfText (shown : String) (cs : List Char) : Except Failure Float :=
  let trimmed := Text.trimBy Numeral.isBlank (Numeral.foldDigits cs)
  match (Numeral.dropUnderscores? none trimmed).bind Numeral.float? with
  | some x => .ok x
  | none => .error (.floatLiteral shown)

/-- Bytes as characters; those outside ASCII become one that no number holds. -/
def byteChars (bs : List UInt8) : List Char :=
  bs.map fun b => if b.toNat < 128 then Char.ofNat b.toNat else '?'

/-- The whole number of a value: fractions are dropped, texts are read. -/
def Value.toInt : Value → Except Failure Int
  | .int n => .ok n
  | .bool b => .ok (boolInt b)
  | .float x =>
    match Decimal.Parts.ofFloat x with
    | .nan => .error .nanToInt
    | .infinite _ => .error .infinityToInt
    | .finite negative m q => .ok (Decimal.truncate negative m q)
  | .text s => intOfText (Value.describe (.text s)) s.toList
  | .broken points => intOfText (Value.describe (.broken points)) (Text.legible points)
  | .bytes bs => intOfText (Value.describe (.bytes bs)) (byteChars bs)
  | v => .error (.intKind v.kindName)

/-- Whether a whole number fits into sixty-four bits with a sign. -/
def isWord (n : Int) : Bool := -Decimal.pow2 63 ≤ n && n < Decimal.pow2 63

/-- The whole number that a value is. -/
def Value.whole? : Value → Option Int
  | .int n => some n
  | .bool b => some (boolInt b)
  | _ => none

/-- The floating-point number nearest to a whole number, unless it is too large. -/
def intToFloat (n : Int) : Except Failure Float :=
  match Decimal.ofInt? n with
  | some x => .ok x
  | none => .error .intToFloat

def Value.toFloat : Value → Except Failure Float
  | .float x => .ok x
  | .int n => intToFloat n
  | .bool b => intToFloat (boolInt b)
  | .text s => floatOfText (Value.describe (.text s)) s.toList
  | .broken points => floatOfText (Value.describe (.broken points)) (Text.legible points)
  | .bytes bs => floatOfText (Value.describe (.bytes bs)) (byteChars bs)
  | v => .error (.floatKind v.kindName)

/-- The members of a value that can be walked through: a text gives its characters, a
dictionary its keys, bytes their numbers. -/
def Value.members : Value → Except Failure (List Value)
  | .list xs | .tuple xs | .set xs => .ok xs
  | .dict pairs => .ok (pairs.map (·.1))
  | .text s => .ok (s.toList.map fun c => .text (String.ofList [c]))
  | .broken points => .ok (points.map fun p => .ofPoints [p])
  | .bytes bs => .ok (bs.map fun b => .int b.toNat)
  | v => .error (.notIterable v.kindName)

/-- The texts of a sequence joined into one. -/
def joinTexts : Nat → List Value → Except Failure (List Text.CodePoint)
  | _, [] => .ok []
  | i, v :: rest =>
    match v.points? with
    | none => .error (.joinKind i v.kindName)
    | some points => (joinTexts (i + 1) rest).map (points ++ ·)

/-- Joining texts puts their code points together. -/
theorem joinTexts_map_ofPoints (i : Nat) (texts : List (List Text.CodePoint)) :
    joinTexts i (texts.map Value.ofPoints) = .ok texts.flatten := by
  induction texts generalizing i with
  | nil => rfl
  | cons points rest ih => simp [joinTexts, ih, Except.map]

end UsageReport
