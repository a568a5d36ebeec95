/-
What is done with metrics, one operation after the other.  A series is named by values: an
operation fails if one of them has no text, or if what it adds is no number.
-/
import UsageReport.Metrics.Basic

namespace UsageReport

namespace Metrics

/-- What is done with metrics. -/
inductive Operation
  /-- Adds to a counter. -/
  | add (name amount : Value) (tags : Pairs)
  | setGauge (name value : Value) (tags : Pairs)
  /-- Adds a sample to a histogram. -/
  | observe (name value : Value) (tags : Pairs)
  | reset

/-- Does something with the series of a name and tags, if they make a key. -/
def withSeries (m : Metrics) (name : Value) (tags : Pairs)
    (act : SeriesKey → Metrics × Except Failure Unit) : Metrics × Except Failure Unit :=
  match SeriesKey.read name tags with
  | .ok key => act key
  | .error failure => (m, .error failure)

/-- One operation: what it leaves behind, and whether it succeeds. -/
def perform (m : Metrics) : Operation → Metrics × Except Failure Unit
  | .add name amount tags => m.withSeries name tags fun key =>
    match m.increment key amount with
    | .ok m' => (m', .ok ())
    | .error failure => (m, .error failure)
  | .setGauge name value tags => m.withSeries name tags fun key => (m.setGauge key value, .ok ())
  | .observe name value tags => m.withSeries name tags fun key => m.observe key value
  | .reset => (m.reset, .ok ())

/-- What operations leave behind, one after the other, whether or not they succeed. -/
def run (m : Metrics) (operations : List Operation) : Metrics :=
  operations.foldl (fun m op => (m.perform op).1) m

/-- The size of the counter of a name and tags. -/
def count (m : Metrics) (name : Value) (tags : Pairs) : Except Failure Int :=
  (SeriesKey.read name tags).map m.counter

end Metrics

end UsageReport
