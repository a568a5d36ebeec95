/-
Summaries and percentiles of samples that are given as values.
-/
import UsageReport.Metrics.Percentile
import UsageReport.Fault

namespace UsageReport

/-- A summary as a dictionary; without samples it only tells that there are none. -/
def summaryValue (samples : List Float) : Value :=
  match summarize? samples with
  | none => .ofFields [("count", .float 0.0)]
  | some s =>
    .ofFields [("count", .float s.count), ("min", .float s.least), ("max", .float s.greatest),
      ("avg", .float s.average), ("p50", .float s.median), ("p95", .float s.high)]

/-- The summary of whatever can be walked through and read as numbers. -/
def summarizeValue (samples : Value) : Except Failure Value := do
  let xs ← samples.members
  let xs ← xs.mapM Value.toFloat
  pure (summaryValue xs)

/-- A percentage given as a value, brought into its range. -/
def percentOf (p : Value) : Except Failure Float :=
  match p with
  | .float x => .ok x
  | .int n => .ok (Scale.ofInt (max 0 (min n 100)))
  | .bool b => .ok (Scale.ofInt (boolInt b))
  | v => .error (.incomparable "float" v.kindName)

def Value.size : Value → Except Failure Nat
  | .list xs | .tuple xs | .set xs => .ok xs.length
  | .dict pairs => .ok pairs.length
  | .text s => .ok s.length
  | .broken points => .ok points.length
  | .bytes bs => .ok bs.length
  | v => .error (.noLength v.kindName)

def Value.at (v : Value) (i : Nat) : Outcome Value :=
  match v with
  | .dict pairs =>
    match Pairs.get? (.int i) pairs with
    | some x => .ok x
    | none => .error (.raised "KeyError" [.int i])
  | .set _ => fail (.notSubscriptable "set")
  | v =>
    match v.members with
    | .ok xs => memberAt xs i
    | .error failure => fail failure

/-- A value as one side of a weighted sum. -/
def Value.weighable : Value → Except Failure Float
  | .float x => .ok x
  | .int n => intToFloat n
  | .bool b => intToFloat (boolInt b)
  | .text _ | .broken _ | .bytes _ | .list _ | .tuple _ => .error .cannotRepeat
  | v => .error (.unsupported "*" v.kindName "float")

/-- A percentile of samples given as a value, whose members need not be numbers as long as
the place falls on one of them. -/
def percentileValue (samples p : Value) : Outcome Value := do
  if !samples.truth then
    pure (.float Json.notANumber)
  else
    let count ← Outcome.ofExcept samples.size
    let p ← Outcome.ofExcept (percentOf p)
    match place? count p with
    | none => fail .nanToInt
    | some place =>
      let x ← samples.at place.lower
      if place.lower = place.upper then pure x
      else
        let x ← Outcome.ofExcept x.weighable
        let y ← samples.at place.upper
        let y ← Outcome.ofExcept y.weighable
        pure (.float (x * place.lowerWeight + y * place.upperWeight))

end UsageReport
