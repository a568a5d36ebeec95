/-
Percentiles of ascending samples, by linear interpolation between the two samples around the
place that the percentage marks.  The rule is stated for any scale of numbers, so that it runs
on floating-point samples and can be studied on exact ones.
-/
import UsageReport.Metrics.Runs
import UsageReport.Value.Numeric

namespace UsageReport

/-- The operations on numbers that summaries need. -/
class Scale (α : Type) where
  ofInt : Int → α
  add : α → α → α
  sub : α → α → α
  mul : α → α → α
  div : α → α → α
  less : α → α → Bool
  /-- Whether a number compares with others. -/
  ordered : α → Bool
  /-- The greatest whole number not above, unless there is none. -/
  floor? : α → Option Int
  /-- The least whole number not below, unless there is none. -/
  ceil? : α → Option Int

/-- The greatest whole number not above a finite floating-point number. -/
def floorFloat? (x : Float) : Option Int :=
  match Decimal.Parts.ofFloat x with
  | .finite negative m q =>
    let t := Decimal.truncate negative m q
    some (if negative && !Decimal.isWhole m q then t - 1 else t)
  | _ => none

/-- The least whole number not below a finite floating-point number. -/
def ceilFloat? (x : Float) : Option Int :=
  match Decimal.Parts.ofFloat x with
  | .finite negative m q =>
    let t := Decimal.truncate negative m q
    some (if !negative && !Decimal.isWhole m q then t + 1 else t)
  | _ => none

instance : Scale Float where
  ofInt n := (Decimal.ofInt? n).getD (if n < 0 then Json.minusInfinity else Json.infinity)
  add := (· + ·)
  sub := (· - ·)
  mul := (· * ·)
  div := (· / ·)
  less x y := x < y
  ordered x := x == x
  floor? := floorFloat?
  ceil? := ceilFloat?

open Scale

variable {α : Type} [Scale α]

/-- A percentage brought into the range from 0 to 100. -/
def clampPercent (p : α) : α :=
  let p := if less p (ofInt 0) then ofInt 0 else p
  if less (ofInt 100) p then ofInt 100 else p

/-- A place between two samples and the weights of both. -/
structure Place (α : Type) where
  lower : Nat
  upper : Nat
  lowerWeight : α
  upperWeight : α

/-- The place of a percentage among `count` samples, unless the percentage is no number. -/
def place? (count : Nat) (p : α) : Option (Place α) := do
  let k := mul (ofInt (count - 1 : Nat)) (div (clampPercent p) (ofInt 100))
  let f ← floor? k
  let c ← ceil? k
  pure ⟨f.toNat, c.toNat, sub (ofInt c) k, sub k (ofInt f)⟩

/-- The sample at a place: itself where the place is a sample, else the weighted sum. -/
def Place.sample? (place : Place α) (xs : List α) : Option α := do
  let x ← xs[place.lower]?
  if place.lower = place.upper then pure x
  else
    let y ← xs[place.upper]?
    pure (add (mul x place.lowerWeight) (mul y place.upperWeight))

/-- A percentile of ascending samples, if there are samples and the percentage is a number. -/
def percentile? (xs : List α) (p : α) : Option α :=
  (place? xs.length p).bind fun place => place.sample? xs

/-- Samples in ascending order, equal ones in the order given. -/
def ascending (xs : List α) : List α :=
  if xs.all ordered then xs.mergeSort fun x y => !less y x else Runs.sort less xs

/-- What is told of a series of samples. -/
structure Summary (α : Type) where
  count : α
  least : α
  greatest : α
  average : α
  median : α
  /-- The sample that ninety-five of a hundred do not exceed. -/
  high : α

/-- The summary of samples, if there are any. -/
def summarize? (samples : List α) : Option (Summary α) := do
  let xs := ascending samples
  let least ← xs.head?
  let greatest ← xs.getLast?
  let count : α := ofInt xs.length
  let median ← percentile? xs (ofInt 50)
  let high ← percentile? xs (ofInt 95)
  pure
    { count, least, greatest
      average := div (xs.foldl add (ofInt 0)) count
      median, high }

end UsageReport
