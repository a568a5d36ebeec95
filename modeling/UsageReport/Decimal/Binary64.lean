/-
Floating-point numbers as exact quotients.  A finite number is m · 2^q with whole m and q;
going back, a quotient is rounded to the nearest number, a tie to the even one.  Both ways
work on whole numbers only, so no rounding is hidden in them.
-/

namespace UsageReport.Decimal

def pow2 (n : Nat) : Nat := Nat.pow 2 n

def pow10 (n : Nat) : Nat := Nat.pow 10 n

/-- A floating-point number taken apart: its sign and, if it is finite, its size as
`significand · 2 ^ exponent`. -/
inductive Parts
  | nan
  | infinite (negative : Bool)
  | finite (negative : Bool) (significand : Nat) (exponent : Int)
  deriving DecidableEq, Repr

/-- Takes the sixty-four bits of a floating-point number apart. -/
def Parts.ofBits (bits : Nat) : Parts :=
  let negative := bits / pow2 63 % 2 == 1
  let field : Nat := bits / pow2 52 % pow2 11
  let fraction : Nat := bits % pow2 52
  if field = 2047 then
    if fraction = 0 then .infinite negative else .nan
  else if field = 0 then .finite negative fraction (-1074)
  else .finite negative (pow2 52 + fraction) ((field : Int) - 1075)

def Parts.ofFloat (x : Float) : Parts := Parts.ofBits x.toBits.toNat

/-- The quotient `num / den` rounded to a whole number, a tie to the even one. -/
def roundQuotient (num den : Nat) : Nat :=
  let q := num / den
  let r := num % den
  if den < 2 * r ∨ (2 * r = den ∧ q % 2 = 1) then q + 1 else q

/-- Whether `den · 2 ^ e ≤ num`. -/
def reachesPower (num den : Nat) (e : Int) : Bool :=
  if 0 ≤ e then den * pow2 e.toNat ≤ num else den ≤ num * pow2 (-e).toNat

/-- The bits of the floating-point number nearest to the positive quotient `num / den`; a
quotient beyond the greatest number gives the bits of infinity. -/
def nearestBits (num den : Nat) : Nat :=
  if num = 0 then 0
  else
    let guess : Int := (num.log2 : Int) - den.log2
    let top := if reachesPower num den guess then guess else guess - 1
    let unit : Int := max (top - 52) (-1074)
    let m :=
      if 0 ≤ unit then roundQuotient num (den * pow2 unit.toNat)
      else roundQuotient (num * pow2 (-unit).toNat) den
    min ((unit + 1074).toNat * pow2 52 + m) (2047 * pow2 52)

/-- The floating-point number nearest to a quotient with a sign. -/
def nearest (negative : Bool) (num den : Nat) : Float :=
  Float.ofBits (UInt64.ofNat (nearestBits num den + if negative then pow2 63 else 0))

/-- The floating-point number nearest to a whole number, unless it is too large. -/
def ofInt? (n : Int) : Option Float :=
  let bits := nearestBits n.natAbs 1
  if bits = 2047 * pow2 52 then none
  else some (nearest (n < 0) n.natAbs 1)

/-- The floating-point number nearest to `digits · 10 ^ exponent`.  Exponents far outside the
range of the format decide the result by themselves. -/
def ofScientific (negative : Bool) (digits : Nat) (exponent : Int) : Float :=
  let size : Int := (Nat.toDigits 10 digits).length + exponent
  if digits = 0 ∨ size < -400 then nearest negative 0 1
  else if 400 < size then nearest negative (pow10 400) 1
  else if 0 ≤ exponent then nearest negative (digits * pow10 exponent.toNat) 1
  else nearest negative digits (pow10 (-exponent).toNat)

/-- The whole number left of the point, the fraction dropped. -/
def truncate (negative : Bool) (significand : Nat) (exponent : Int) : Int :=
  let size : Nat :=
    if 0 ≤ exponent then significand * pow2 exponent.toNat
    else significand / pow2 (-exponent).toNat
  if negative then -size else size

/-- Whether `significand · 2 ^ exponent` is a whole number. -/
def isWhole (significand : Nat) (exponent : Int) : Bool :=
  0 ≤ exponent || significand % pow2 (-exponent).toNat == 0

end UsageReport.Decimal
