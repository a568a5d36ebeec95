/-
Rolling metrics about the reports themselves.  A series is known by its name and its tags,
whatever the order of the tags; there are counters, gauges that hold their last value, and
histograms that hold their last samples.
-/
import UsageReport.Metrics.Samples
import UsageReport.Value.Written

namespace UsageReport

open Text (CodePoint)

/-- What a series is known by. -/
structure SeriesKey where
  name : List CodePoint
  /-- Tags and their values in ascending order. -/
  tags : List (List CodePoint × List CodePoint)
  deriving DecidableEq, Repr

/-- The order of tags: by name, then by value. -/
def tagLE (a b : List CodePoint × List CodePoint) : Bool :=
  if a.1 = b.1 then Text.atMost a.2 b.2 else Text.atMost a.1 b.1

namespace SeriesKey

/-- The tags that have a value. -/
def given (tags : Pairs) : Pairs :=
  tags.filter fun t => match t.2 with
    | .null => false
    | _ => true

/-- The key of a name and tags given as values; tags without a value are left out. -/
def of (name : Value) (tags : Pairs) : SeriesKey :=
  { name := name.plain
    tags := ((given tags).map fun t => (t.1.plain, t.2.plain)).mergeSort tagLE }

/-- The key of a name and tags, if all of them have a text. -/
def read (name : Value) (tags : Pairs) : Except Failure SeriesKey :=
  if name.hasText && (given tags).all (fun t => t.1.hasText && t.2.hasText) then .ok (of name tags)
  else .error .tooLongToWrite

/-- The key as text: the name, and the tags in braces if there are any. -/
def text (k : SeriesKey) : List CodePoint :=
  if k.tags.isEmpty then k.name
  else k.name ++ Text.points "\x7b" ++
    [.char ','].intercalate (k.tags.map fun t => t.1 ++ .char '=' :: t.2) ++ Text.points "\x7d"

end SeriesKey

/-- A table of series in the order of their first use. -/
abbrev Table (α : Type) := List (SeriesKey × α)

namespace Table

variable {α : Type}

def get? (key : SeriesKey) (t : Table α) : Option α := List.lookup key t

/-- Sets the content of a series; a new one goes last. -/
def put (key : SeriesKey) (content : α) : Table α → Table α
  | [] => [(key, content)]
  | (k, old) :: rest => if k = key then (k, content) :: rest else (k, old) :: put key content rest

end Table

structure Metrics where
  /-- How many samples a histogram holds at most. -/
  limit : Nat
  counters : Table Int
  gauges : Table Value
  histograms : Table (List Float)

namespace Metrics

/-- The least number of samples that a histogram holds. -/
def leastLimit : Nat := 10

/-- The greatest limit under which histograms can be made. -/
def greatestLimit : Nat := Decimal.pow2 63 - 1

/-- Empty metrics with the limit wished for, or the least one. -/
def new (limit : Int) : Metrics := ⟨max leastLimit limit.toNat, [], [], []⟩

/-- Empty metrics with a limit given as a value. -/
def ofLimit (limit : Value) : Except Failure Metrics := limit.toInt.map new

/-- The limit of metrics that are made without one. -/
def usualLimit : Int := 200

/-- The name of the argument that metrics are made with. -/
def limitName : String := "max_samples_per_histogram"

/-- Empty metrics from named arguments, of which there is one, the limit. -/
def ofArguments (given : Pairs) : Outcome Metrics :=
  match named? given with
  | none => fail .keywordKind
  | some named =>
    let owner := "RollingMetrics.__init__()"
    match named.find? (·.1 != Text.points limitName) with
    | some (name, _) =>
      if name = Text.points "self" then fail (.repeatedArgument owner "self")
      else fail (.unexpectedArgument owner name)
    | none =>
      match named with
      | [] => .ok (new usualLimit)
      | (_, limit) :: _ => Outcome.ofExcept (ofLimit limit)

def reset (m : Metrics) : Metrics := { m with counters := [], gauges := [], histograms := [] }

/-- The size of a counter; one never used is zero. -/
def counter (m : Metrics) (key : SeriesKey) : Int := (m.counters.get? key).getD 0

def add (m : Metrics) (key : SeriesKey) (n : Int) : Metrics :=
  { m with counters := m.counters.put key (m.counter key + n) }

/-- Adds a value to a counter, if the value is a number. -/
def increment (m : Metrics) (key : SeriesKey) (n : Value) : Except Failure Metrics :=
  n.toInt.map (m.add key)

def setGauge (m : Metrics) (key : SeriesKey) (value : Value) : Metrics :=
  { m with gauges := m.gauges.put key value }

/-- The last `limit` members of a list. -/
def lastOf {α : Type} (limit : Nat) (xs : List α) : List α := xs.drop (xs.length - limit)

/-- Adds a sample to a histogram, which keeps its last ones. -/
def sample (m : Metrics) (key : SeriesKey) (x : Float) : Metrics :=
  let old := (m.histograms.get? key).getD []
  { m with histograms := m.histograms.put key (lastOf m.limit (old ++ [x])) }

/-- Makes an empty histogram, unless there is one. -/
def openHistogram (m : Metrics) (key : SeriesKey) : Metrics :=
  match m.histograms.get? key with
  | some _ => m
  | none => { m with histograms := m.histograms.put key [] }

/-- Adds a value to a histogram.  The histogram is made before the value is read, so it is
there even if the value is no number. -/
def observe (m : Metrics) (key : SeriesKey) (value : Value) : Metrics × Except Failure Unit :=
  if greatestLimit < m.limit ∧ m.histograms.get? key = none then (m, .error .limitTooLarge)
  else match value.toFloat with
    | .error failure => (m.openHistogram key, .error failure)
    | .ok x => ((m.openHistogram key).sample key x, .ok ())

/-- Adds values to a histogram in order, up to the first that is no number. -/
def observeAll (m : Metrics) (key : SeriesKey) : List Value → Metrics × Except Failure Unit
  | [] => (m, .ok ())
  | v :: rest =>
    match m.observe key v with
    | (m, .ok ()) => m.observeAll key rest
    | stopped => stopped

/-- A table as a dictionary; keys with one text share an entry, which holds the last one. -/
def tableValue {α : Type} (write : α → Value) (t : Table α) : Value :=
  .dict (Pairs.ofList (t.map fun s => (.ofPoints s.1.text, write s.2)))

/-- All series as a dictionary. -/
def snapshot (m : Metrics) : Value :=
  .ofFields [("counters", tableValue Value.int m.counters), ("gauges", tableValue id m.gauges),
    ("histograms", tableValue summaryValue m.histograms)]

end Metrics

end UsageReport
