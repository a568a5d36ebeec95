/-
Lenient coercions.  A field of a kind takes values of that kind and what plainly stands for one,
such as a text of digits for a whole number; bytes count as the text they spell.  Whatever else
comes is refused with the kind of the problem.
-/
import UsageReport.Settings.Field

namespace UsageReport.Field

/-- The characters of a value that counts as a text; `unreadable` is the problem of bytes that
spell none. -/
def textual? (unreadable : ProblemKind) : Value → Option (Reading (List Char))
  | .text s => some (.ok s.toList)
  | .broken _ => some (.error .stringUnicode)
  | .bytes bs =>
    match Text.utf8Decode bs with
    | .ok cs => some (.ok cs)
    | .error _ => some (.error unreadable)
  | _ => none

/-- A text field, which keeps lone halves. -/
def readText (v : Value) : Reading (List Text.CodePoint) :=
  match v with
  | .broken points => .ok points
  | v =>
    match textual? .stringUnicode v with
    | some reading => reading.map (·.map .char)
    | none => .error .stringType

def trueWords : List String := ["1", "on", "t", "true", "y", "yes"]

def falseWords : List String := ["0", "off", "f", "false", "n", "no"]

/-- A truth value spelled as a word, in any case. -/
def boolOfText (cs : List Char) : Reading Bool :=
  let word := String.ofList (Numeral.lower cs)
  if trueWords.contains word then .ok true
  else if falseWords.contains word then .ok false
  else .error .boolParsing

/-- The truth value of a whole number. -/
def boolOfInt (n : Int) : Reading Bool :=
  if n = 0 then .ok false
  else if n = 1 then .ok true
  else if isWord n then .error .boolParsing
  else .error .boolType

/-- Whether a whole number fits into sixty-four bits together with its opposite. -/
def isInnerWord (n : Int) : Bool := isWord n && isWord (-n)

/-- The truth value of a floating-point number: it counts as the whole number that it is. -/
def boolOfFloat (x : Float) : Reading Bool :=
  match Decimal.Parts.ofFloat x with
  | .finite negative m q =>
    let n := Decimal.truncate negative m q
    if Decimal.isWhole m q && isInnerWord n then boolOfInt n else .error .boolType
  | _ => .error .boolType

def readBool (v : Value) : Reading Bool :=
  match v with
  | .bool b => .ok b
  | .int n => boolOfInt n
  | .float x => boolOfFloat x
  | v =>
    match textual? .boolParsing v with
    | some reading => reading.bind boolOfText
    | none => .error .boolType

/-- Whether a character is a digit other than zero. -/
def isNonzeroDigit (c : Char) : Bool := c.isDigit && c != '0'

/-- A minus sign, if the text begins with one, and what follows. -/
def splitMinus : List Char → Bool × List Char
  | '-' :: rest => (true, rest)
  | cs => (false, cs)

/-- Whether a text begins with more characters of a whole number than are read. -/
def isOverlong (cs : List Char) : Bool :=
  let (negative, rest) := splitMinus cs
  let run := rest.takeWhile Char.isDigit
  run.head? != some '0' && Json.digitLimit < run.length + if negative then 1 else 0

/-- A whole number in plain spelling: a minus sign, if any, and digits without a needless zero
in front. -/
def plainInt? (cs : List Char) : Option Int :=
  let (negative, ds) := splitMinus cs
  if ds.isEmpty || !ds.all Char.isDigit || (ds.head? == some '0' && 1 < ds.length) then none
  else
    let size : Int := Json.digitsValue ds
    some (if negative then -size else size)

/-- What follows the zeros that begin a number, with the underscores between them; the last of
these, `before`, stays in front of a point or alone. -/
def skipZeros? (before : Char) : List Char → Option (List Char)
  | [] => some [before]
  | c :: rest =>
    if c = '0' ∨ c = '_' then skipZeros? c rest
    else if isNonzeroDigit c ∨ c = '-' then some (c :: rest)
    else if c = '.' then some (before :: c :: rest)
    else none

/-- A number without needless zeros in front. -/
def dropZeros? : List Char → Option (List Char)
  | '0' :: rest => skipZeros? '0' rest
  | c :: rest => if isNonzeroDigit c ∨ c = '-' then some (c :: rest) else none
  | [] => none

/-- A number without a fraction of zeros. -/
def dropZeroFraction (cs : List Char) : List Char :=
  match cs.dropWhile (· != '.') with
  | '.' :: zeros =>
    if !zeros.isEmpty && zeros.all (· == '0') then cs.takeWhile (· != '.') else cs
  | _ => cs

/-- Whether two underscores stand together. -/
def hasDoubleUnderscore : List Char → Bool
  | '_' :: '_' :: _ => true
  | _ :: rest => hasDoubleUnderscore rest
  | [] => false

/-- A text without its underscores, unless they stand at an end or together. -/
def dropInnerUnderscores (cs : List Char) : List Char :=
  if cs.head? == some '_' || cs.getLast? == some '_' || hasDoubleUnderscore cs then cs
  else cs.filter (· != '_')

/-- A spelled number in plain spelling, as far as blanks, a sign, zeros and underscores keep it
from that. -/
def tidyInt? (cs : List Char) : Option (List Char) := do
  let cs := Text.trimBy Numeral.isBlank cs
  let (negative, cs) ← match cs with
    | '+' :: '-' :: _ => none
    | '+' :: rest => some (false, rest)
    | cs => some (splitMinus cs)
  let cs ← dropZeros? cs
  let cs := dropInnerUnderscores (dropZeroFraction cs)
  pure (if negative then '-' :: cs else cs)

/-- A whole number spelled in ASCII digits.  Only what is too long as it stands counts as such;
what is found too long after tidying is no number. -/
def intOfDigits (cs : List Char) : Reading Int :=
  if isOverlong cs then .error .intParsingSize
  else
    let tidied := (tidyInt? cs).filter (!isOverlong ·)
    match plainInt? cs <|> tidied.bind plainInt? with
    | some n => .ok n
    | none => .error .intParsing

/-- The whole number of a floating-point one that has no fraction and fits in 64 bits. -/
def intOfFloat (x : Float) : Reading Int :=
  match Decimal.Parts.ofFloat x with
  | .finite negative m q =>
    if !Decimal.isWhole m q then .error .intFromFloat
    else
      let n := Decimal.truncate negative m q
      if isInnerWord n then .ok n else .error .intParsingSize
  | _ => .error .finiteNumber

/-- A whole number field without bounds. -/
def readWhole (v : Value) : Reading Int :=
  match v with
  | .int n => .ok n
  | .bool b => .ok (boolInt b)
  | .float x => intOfFloat x
  | v =>
    match textual? .intParsing v with
    | some reading => reading.bind intOfDigits
    | none => .error .intType

def readFloat (v : Value) : Reading Float :=
  match v with
  | .float x => .ok x
  | .int n => match Decimal.ofInt? n with
    | some x => .ok x
    | none => .error .floatType
  | .bool b => .ok (if b then 1.0 else 0.0)
  | v =>
    match textual? .floatParsing v with
    | none => .error .floatType
    | some reading => reading.bind fun cs =>
      match Numeral.float? (Text.trimBy Numeral.isBlank cs) <|>
        Numeral.float? (dropInnerUnderscores cs) with
      | some x => .ok x
      | none => .error .floatParsing

theorem readText_ofPoints (points : List Text.CodePoint) :
    readText (.ofPoints points) = .ok points := by
  cases hcs : Text.characters? points with
  | none => simp only [Value.ofPoints, hcs, readText]
  | some cs =>
      obtain rfl := Text.eq_map_of_characters? hcs
      simp only [Value.ofPoints, hcs, readText, textual?, Except.map, String.toList_ofList]

/-- The coercions that a program runs with. -/
def Coercions.lenient : Coercions where
  text := readText
  bool := readBool
  whole := readWhole
  float := readFloat
  text_own := readText_ofPoints
  bool_own _ := rfl
  whole_own _ := rfl
  float_own _ := rfl

end UsageReport.Field
