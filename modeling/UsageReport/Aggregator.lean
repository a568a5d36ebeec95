/-
The aggregator: the entry point for reports.  It holds a registry and looks at the client
around it without owning it.  A request runs under one trace, is logged and counted, and its
result goes into a promise.  Once torn down, an aggregator refuses every operation.
-/
import UsageReport.Assembly
import UsageReport.Message
import UsageReport.Promise

namespace UsageReport

/-- Who the client runs for. -/
structure Session where
  automated : Value := .bool false

def Session.isAutomated (s : Session) : Bool := s.automated.truth

structure Aggregator where
  settings : Settings
  registry : Registry
  sink : Sink
  /-- The client around it, as long as it is held, and its session, if it has one. -/
  host : Option (Option Session)
  /-- Whether there are metrics to count requests in. -/
  measured : Bool
  running : Bool := false
  closed : Bool := false

namespace Aggregator

def records (a : Aggregator) : Bool := a.measured && a.settings.recordMetrics

/-- The refusal of an operation on an aggregator that was torn down. -/
def closedFault (operation : String) : Fault :=
  .standard .aggregatorClosed [("operation", .text operation)]

def ensureOpen (a : Aggregator) (operation : String) : Outcome Unit :=
  if a.closed then .error (closedFault operation) else .ok ()

def startUp (a : Aggregator) : Outcome Aggregator := do
  a.ensureOpen "start_up"
  pure { a with running := true }

/-- Tears an aggregator down: it lets go of the client and of all providers. -/
def tearDown (a : Aggregator) : Outcome Aggregator := do
  a.ensureOpen "tear_down"
  pure { a with host := none, registry := .empty, running := false, closed := true }

def sessionIsAutomated (a : Aggregator) : Bool :=
  match a.host with
  | some (some session) => session.isAutomated
  | _ => false

/-- The notifications about the current state, after those given.  Neither automated sessions
nor interactive ones have any to add. -/
def currentState (a : Aggregator) (updates : List Update) : Outcome (List Update) := do
  a.ensureOpen "get_current_state"
  pure (if a.sessionIsAutomated then updates else updates ++ [])

def requestSeries (ok : Bool) : SeriesKey :=
  .of (.text "memory_stats_requests_total")
    [(.text "outcome", .text (if ok then "ok" else "error"))]

def faultSeries : SeriesKey := .of (.text "memory_stats_provider_faults_total") []

def timeSeries : SeriesKey := .of (.text "memory_stats_assembly_ms") []

def sizeSeries : SeriesKey := .of (.text "memory_stats_providers") []

def measure (m : Metrics) (ok : Bool) (faults : Nat) (elapsed : Float) (size : Nat) :
    Metrics × Outcome Unit :=
  let m := m.add (requestSeries ok) 1
  let m := if faults = 0 then m else m.add faultSeries faults
  match m.observe timeSeries (.float elapsed) with
  | (m, .error failure) => (m, fail failure)
  | (m, .ok ()) => (m.setGauge sizeSeries (.int size), .ok ())

def record (a : Aggregator) (w : World) (ok : Bool) (faults : Nat) : World × Outcome Unit :=
  if a.records then
    let (m, outcome) := measure w.metrics ok faults w.clock.elapsed a.registry.size
    ({ w with metrics := m }, outcome)
  else (w, .ok ())

variable {α : Type}

/-- Answers a request whose assembly ended: logs it, counts it, and resolves the promise.  An
interruption resolves nothing. -/
def answer (a : Aggregator) (w : World) (trace : TraceId) (full : Bool) (deliver : Report → α)
    (p : Promise α) : Outcome Assembly → World × Promise α × Outcome Unit
  | .ok r =>
    let w := w.logs (.requestDone trace r.entries r.faults.length r.text.length full)
    match a.record w true r.faults.length with
    | (w, .error f) => (w, p, .error f)
    | (w, .ok ()) => (w, p.setValue w.traces.bound (deliver ⟨r.text⟩))
  | .error f =>
    if !f.isCatchable then (w, p, .error f)
    else
      let w := w.logs (.requestFailed trace f.logCode)
      match a.record w false 1 with
      | (w, .error f) => (w, p, .error f)
      | (w, .ok ()) => (w, p.setError w.traces.bound f)

/-- Requests a report.  The request runs under the trace that is bound, or a fresh one, and
leaves the binding as it was; `deliver` turns the report into what the promise takes. -/
def request (a : Aggregator) (w : World) (deliver : Report → α) (full : Value)
    (p : Promise α) : World × Promise α × Outcome Unit :=
  match a.ensureOpen "get_memory_stats" with
  | .error f => (w, p, .error f)
  | .ok () =>
    let (trace, traces) := w.traces.inherit
    let inside := { w with traces := traces.bind trace }
    let (w', assembled) := Assembly.run a.settings a.sink inside a.registry (.bool full.truth)
    let (w', p, outcome) := a.answer w' trace full.truth deliver p assembled
    ({ w' with traces := w'.traces.restore w.traces }, p, outcome)

end Aggregator

end UsageReport
