/-
Floating-point numbers with a number of digits that is asked for: so many places after the
point, or so many digits in all.  A number is rounded exactly, a tie to the even digit.
-/
import UsageReport.Decimal.Layout

namespace UsageReport.Decimal

/-- The number `m · 2 ^ q · 10 ^ places`, rounded to a whole one. -/
def scaled (m : Nat) (q places : Int) : Nat :=
  roundQuotient (m * pow2 q.toNat * pow10 places.toNat) (pow2 (-q).toNat * pow10 (-places).toNat)

/-- The digits before and after the point. -/
structure Pointed where
  whole : List Char
  fraction : List Char

/-- Both parts of a number with so many places after the point. -/
def Pointed.ofScaled (digits places : Nat) : Pointed :=
  let ds := padLeft (places + 1) (digitChars digits)
  ⟨ds.take (ds.length - places), ds.drop (ds.length - places)⟩

/-- A number without the zeros that end its fraction. -/
def Pointed.trim (p : Pointed) : Pointed := { p with fraction := dropTrailingZeros p.fraction }

/-- The text of a number; the point is left out if nothing follows it, unless it is wanted. -/
def Pointed.text (point : Bool) (p : Pointed) : List Char :=
  p.whole ++ if p.fraction.isEmpty && !point then [] else '.' :: p.fraction

/-- A number with so many places after the point. -/
def fixedPlaces (places m : Nat) (q : Int) : Pointed := .ofScaled (scaled m q places) places

/-- A number as a mantissa with so many places after its only leading digit, and the power of
ten. -/
def mantissa (places m : Nat) (q : Int) : Pointed × Int :=
  let power : Int :=
    if m = 0 then 0 else decimalExponent (m * pow2 q.toNat) (pow2 (-q).toNat) - 1
  let digits := scaled m q (places - power)
  if digits = pow10 (places + 1) then (.ofScaled (digits / 10) places, power + 1)
  else (.ofScaled digits places, power)

/-- The exponent of a power of ten, on two digits or more. -/
def exponentText (power : Int) : List Char :=
  'e' :: (if power < 0 then '-' else '+') :: padLeft 2 (digitChars power.natAbs)

/-- How a number is written with a number of digits. -/
inductive Fashion
  /-- So many places after the point. -/
  | fixed
  /-- So many places after the point of the mantissa. -/
  | scientific
  /-- So many digits in all, without the zeros that end them. -/
  | general
  deriving DecidableEq, Repr

/-- The text of a finite number without its sign; `point` asks for the point, and for the zeros
at the end of a general number. -/
def Fashion.write (fashion : Fashion) (point : Bool) (digits m : Nat) (q : Int) : List Char :=
  match fashion with
  | .fixed => (fixedPlaces digits m q).text point
  | .scientific =>
    let (p, power) := mantissa digits m q
    p.text point ++ exponentText power
  | .general =>
    let digits := max 1 digits
    let (p, power) := mantissa (digits - 1) m q
    let shown (p : Pointed) : List Char := (if point then p else p.trim).text point
    if -4 ≤ power ∧ power < digits then shown (fixedPlaces (digits - 1 - power).toNat m q)
    else shown p ++ exponentText power

end UsageReport.Decimal
