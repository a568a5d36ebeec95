/-
What a request works in and changes: the files, the metrics, the calls of providers, the log,
and the traces.  The clock is read, never set: rows are stamped with its text, and an assembly
takes the time it tells.
-/
import UsageReport.ErrorLog
import UsageReport.Logging.Event
import UsageReport.Provider.Basic
import UsageReport.Trace

namespace UsageReport

/-- What is told about time. -/
structure Clock where
  /-- The time of day in the error log. -/
  stamp : String
  /-- How many milliseconds an assembly takes. -/
  elapsed : Float

/-- What a request works in. -/
structure World where
  files : FileTree
  metrics : Metrics
  calls : List CallRecord
  log : List LogEvent
  traces : TraceState
  clock : Clock

namespace World

def logs (w : World) (event : LogEvent) : World := { w with log := w.log ++ [event] }

def noteCall (w : World) (call : CallRecord) : World := { w with calls := w.calls ++ [call] }

/-- Replaces what reports of errors change. -/
def withEffects (w : World) (e : ErrorLog.Effects) : World :=
  { w with files := e.files, metrics := e.metrics }

end World

/-- Where contained faults are reported. -/
inductive Sink
  | none
  | log (log : ErrorLog)
  /-- To something that raises an ordinary fault every time. -/
  | failing (fault : Fault) (ordinary : fault.isCatchable = true)
  /-- To anything else that takes a fault or raises an ordinary one, whatever it goes by. -/
  | other (answer : World → Fault → TraceId → Name → Outcome Unit)
      (ordinary : ∀ w f trace provider raised,
        answer w f trace provider = .error raised → raised.isCatchable = true)

/-- Reports a fault to a sink; nothing is told where there is no sink. -/
def Sink.report (sink : Sink) (w : World) (f : Fault) (trace : TraceId) (provider : Name) :
    World × Outcome Unit :=
  match sink with
  | .none => (w, .ok ())
  | .failing f _ => (w, .error f)
  | .other answer _ => (w, answer w f trace provider)
  | .log l =>
    match l.report w.clock.stamp ⟨w.files, w.metrics⟩ f (.ofPoints trace) (.text "provider")
        [(.text "provider", provider.value)] with
    | (e, .ok _) => (w.withEffects e, .ok ())
    | (e, .error failure) => (w.withEffects e, .error failure)

end UsageReport
