/-
The two texts of a value: the one that shows its structure, with texts in quotes, and the
plain one, in which a text is itself.  Here numbers are written however long they are.
-/
import UsageReport.Value.Basic
import UsageReport.Decimal.Layout
import UsageReport.Text.Digit
import UsageReport.Text.Printable

namespace UsageReport

/-- Single quotes, unless the text holds some and no double ones. -/
def quoteFor (hasSingle hasDouble : Bool) : Char :=
  if hasSingle && !hasDouble then '"' else '\''

/-- The escape of a code point: two, four or eight hexadecimal digits, as few as hold it. -/
def escapeCode (n : Nat) : List Char :=
  if n < 256 then '\\' :: 'x' :: Text.hexDigits 2 n
  else if n < 65536 then '\\' :: 'u' :: Text.hexDigits 4 n
  else '\\' :: 'U' :: Text.hexDigits 8 n

/-- A character as it stands between quotes. -/
def quoteChar (quote : Char) (shows : Bool) (c : Char) : List Char :=
  if c = quote ∨ c = '\\' then ['\\', c]
  else if c = '\n' then ['\\', 'n']
  else if c = '\r' then ['\\', 'r']
  else if c = '\t' then ['\\', 't']
  else if shows then [c]
  else escapeCode c.toNat

/-- A text in quotes, with what does not show escaped. -/
def quoteText (s : String) : String :=
  let cs := s.toList
  let quote := quoteFor (cs.contains '\'') (cs.contains '"')
  String.ofList (quote :: cs.flatMap (fun c => quoteChar quote (Text.isPrintable c) c) ++ [quote])

/-- A text with lone halves in quotes; these are escaped. -/
def quoteBroken (points : List Text.CodePoint) : String :=
  let quote := quoteFor (points.contains (.char '\'')) (points.contains (.char '"'))
  String.ofList (quote :: points.flatMap (fun p => match p with
    | .char c => quoteChar quote (Text.isPrintable c) c
    | .surrogate n => escapeCode n) ++ [quote])

/-- Bytes in quotes; only those of printable ASCII characters show. -/
def quoteBytes (bs : List UInt8) : String :=
  let cs := bs.map fun b => Char.ofNat b.toNat
  let quote := quoteFor (cs.contains '\'') (cs.contains '"')
  let shows := fun (c : Char) => 32 ≤ c.toNat && c.toNat < 127
  String.ofList ('b' :: quote :: cs.flatMap (fun c => quoteChar quote (shows c) c) ++ [quote])

/-- Floating-point numbers are written shortest, positionally from 0.0001 up to 10^16. -/
def floatLayout : Decimal.Layout := {}

/-- A dictionary's braces; they are built from characters so that no text holds one. -/
def braces (s : String) : String := "\x7b" ++ s ++ "\x7d"

mutual

/-- The text that shows a value's structure. -/
def Value.describe : Value → String
  | .null => "None"
  | .bool b => if b then "True" else "False"
  | .int n => toString n
  | .float x => floatLayout.write x
  | .text s => quoteText s
  | .broken points => quoteBroken points
  | .bytes bs => quoteBytes bs
  | .list xs => "[" ++ ", ".intercalate (Value.describeAll xs) ++ "]"
  | .tuple [x] => "(" ++ Value.describe x ++ ",)"
  | .tuple xs => "(" ++ ", ".intercalate (Value.describeAll xs) ++ ")"
  | .set [] => "set()"
  | .set xs => braces (", ".intercalate (Value.describeAll xs))
  | .dict pairs => braces (", ".intercalate (Value.describePairs pairs))

def Value.describeAll : List Value → List String
  | [] => []
  | x :: xs => Value.describe x :: Value.describeAll xs

def Value.describePairs : List (Value × Value) → List String
  | [] => []
  | (k, v) :: rest => (Value.describe k ++ ": " ++ Value.describe v) :: Value.describePairs rest

end

/-- The plain text of a value: a text is itself, lone halves included, and all else shows its
structure. -/
def Value.plain (v : Value) : List Text.CodePoint := v.points?.getD (Text.points v.describe)

end UsageReport
