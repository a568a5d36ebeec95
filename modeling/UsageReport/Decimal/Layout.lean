/-
How a decimal is laid out as text: which sizes are written positionally, how the exponent
looks, and what stands for the values that are no numbers.
-/
import UsageReport.Decimal.Shortest

namespace UsageReport.Decimal

/-- The choices of a decimal notation. -/
structure Layout where
  /-- The greatest power of ten still written without an exponent lies below this one. -/
  positionalBelow : Int := 16
  /-- The least power of ten still written without an exponent. -/
  positionalFrom : Int := -4
  /-- The least number of digits of an exponent. -/
  exponentDigits : Nat := 2
  nan : String := "nan"
  infinity : String := "inf"

def digitChars (n : Nat) : List Char := Nat.toDigits 10 n

/-- A list of digits, padded with leading zeros. -/
def padLeft (width : Nat) (cs : List Char) : List Char :=
  List.replicate (width - cs.length) '0' ++ cs

/-- Digits without the zeros that end them. -/
def dropTrailingZeros (cs : List Char) : List Char :=
  (cs.reverse.dropWhile (· == '0')).reverse

/-- Digits with the point after the first `point` of them; a whole number keeps `.0`. -/
def positional (ds : List Char) (point : Int) : List Char :=
  if point ≤ 0 then
    '0' :: '.' :: (List.replicate (-point).toNat '0' ++ ds)
  else if ds.length ≤ point.toNat then
    ds ++ List.replicate (point.toNat - ds.length) '0' ++ ['.', '0']
  else ds.take point.toNat ++ '.' :: ds.drop point.toNat

/-- Digits in scientific notation, one of them before the point. -/
def scientific (width : Nat) (ds : List Char) (power : Int) : List Char :=
  let mantissa := match ds with
    | [] => ['0']
    | [d] => [d]
    | d :: rest => d :: '.' :: rest
  let sign := if power < 0 then '-' else '+'
  mantissa ++ 'e' :: sign :: padLeft width (digitChars power.natAbs)

def Layout.unsigned (layout : Layout) (d : Digits) : List Char :=
  let ds := dropTrailingZeros (digitChars d.digits)
  let power := d.point - 1
  if layout.positionalFrom ≤ power ∧ power < layout.positionalBelow then positional ds d.point
  else scientific layout.exponentDigits ds power

def Layout.ofParts (layout : Layout) : Parts → List Char
  | .nan => layout.nan.toList
  | .infinite negative => (if negative then ['-'] else []) ++ layout.infinity.toList
  | .finite negative m q =>
    (if negative then ['-'] else []) ++
      if m = 0 then ['0', '.', '0'] else layout.unsigned (shortest m q)

/-- The text of a floating-point number. -/
def Layout.write (layout : Layout) (x : Float) : String :=
  String.ofList (layout.ofParts (Parts.ofFloat x))

end UsageReport.Decimal
