/-
The shortest decimal of a floating-point number.  Every number stands for an interval of
reals that round to it.  For one, two, three … digits, the two neighbours of the number on
that decimal grid are tried; the first grid with a neighbour inside the interval gives the
digits, the nearer neighbour wins, and of two equally near the even one.
-/
import UsageReport.Decimal.Binary64

namespace UsageReport.Decimal

/-- A positive decimal `0.d₁d₂… · 10 ^ point`, its digits read as one whole number. -/
structure Digits where
  digits : Nat
  point : Int
  deriving DecidableEq, Repr

/-- The reals that round to a number, as quotients over one denominator. -/
structure Interval where
  low : Nat
  value : Nat
  high : Nat
  denominator : Nat
  /-- Whether the ends belong to it. -/
  closed : Bool

/-- The interval of the positive number `m · 2 ^ q`.  Below a power of two the grid of
floating-point numbers is finer, so the lower half is shorter there. -/
def Interval.of (m : Nat) (q : Int) : Interval :=
  let below := if m = pow2 52 ∧ -1074 < q then 1 else 2
  let scale := if 2 ≤ q then pow2 (q - 2).toNat else 1
  { low := (4 * m - below) * scale
    value := 4 * m * scale
    high := (4 * m + 2) * scale
    denominator := if 2 ≤ q then 1 else pow2 (2 - q).toNat
    closed := m % 2 == 0 }

def Interval.contains (i : Interval) (num den : Nat) : Bool :=
  if i.closed then i.low * den ≤ num * i.denominator && num * i.denominator ≤ i.high * den
  else i.low * den < num * i.denominator && num * i.denominator < i.high * den

/-- How many leading zeros follow the point of a quotient below one. -/
def leadingZeros (num den : Nat) : Nat → Nat
  | 0 => 0
  | fuel + 1 => if den ≤ num * 10 then 0 else leadingZeros (num * 10) den fuel + 1

/-- The exponent `k` with `10 ^ (k - 1) ≤ num / den < 10 ^ k`. -/
def decimalExponent (num den : Nat) : Int :=
  if den ≤ num then (Nat.toDigits 10 (num / den)).length
  else -(leadingZeros num den 400 : Int)

/-- The best neighbour on the grid of `n` digits, if one lies in the interval. -/
def Interval.neighbour? (i : Interval) (point : Int) (n : Nat) : Option Digits :=
  let step : Int := point - n
  let up := if 0 ≤ step then pow10 step.toNat else 1
  let down := if 0 ≤ step then 1 else pow10 (-step).toNat
  let lower := i.value * down / (i.denominator * up)
  let gapBelow := i.value * down - lower * (i.denominator * up)
  let gapAbove := (lower + 1) * (i.denominator * up) - i.value * down
  let hasLower := 0 < lower && i.contains (lower * up) down
  let hasUpper := i.contains ((lower + 1) * up) down
  let upperWins := gapAbove < gapBelow || (gapAbove == gapBelow && lower % 2 == 1)
  if hasUpper && (upperWins || !hasLower) then
    if lower + 1 = pow10 n then some ⟨1, point + 1⟩ else some ⟨lower + 1, point⟩
  else if hasLower then some ⟨lower, point⟩
  else none

/-- Tries the grids of `n`, `n + 1`, … digits. -/
def Interval.search (i : Interval) (point : Int) : Nat → Nat → Digits
  | 0, _ => ⟨0, 0⟩
  | fuel + 1, n => (i.neighbour? point n).getD (i.search point fuel (n + 1))

/-- The shortest decimal that rounds to `m · 2 ^ q`, the nearest one of that length. -/
def shortest (m : Nat) (q : Int) : Digits :=
  let i := Interval.of m q
  i.search (decimalExponent i.value i.denominator) 17 1

end UsageReport.Decimal
