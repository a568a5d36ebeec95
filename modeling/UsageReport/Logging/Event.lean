/-
What the library logs: faults that were contained, error sinks that failed, and the end of
every request.  An event has a level and a message; all of them carry the trace of their
request.
-/
import UsageReport.Provider.Name
import UsageReport.Trace

namespace UsageReport

open Text (CodePoint)

def infoLevel : Int := 20

def warningLevel : Int := 30

def errorLevel : Int := 40

/-- The name of a level; levels between the usual ones are named by their number. -/
def levelName (level : Int) : String :=
  ([((50 : Int), "CRITICAL"), (40, "ERROR"), (30, "WARNING"), (20, "INFO"), (10, "DEBUG"),
    (0, "NOTSET")].lookup level).getD ("Level " ++ toString level)

/-- The word for a truth value in messages. -/
def truthWord (b : Bool) : String := if b then "True" else "False"

/-- Something that is logged. -/
inductive LogEvent
  | providerFault (trace : TraceId) (provider : Name) (className : String)
  /-- The error sink failed to take that fault. -/
  | sinkFailed (trace : TraceId) (provider : Name) (className : String)
  | requestFailed (trace : TraceId) (code : Value)
  /-- A request ended with a report of so many entries, faults and characters. -/
  | requestDone (trace : TraceId) (entries faults size : Nat) (full : Bool)

namespace LogEvent

def level : LogEvent → Int
  | providerFault _ _ _ | sinkFailed _ _ _ => warningLevel
  | requestFailed _ _ => errorLevel
  | requestDone _ _ _ _ _ => infoLevel

def trace : LogEvent → TraceId
  | providerFault t _ _ | sinkFailed t _ _ | requestFailed t _ | requestDone t _ _ _ _ => t

/-- The message of an event, unless the code in it has no text. -/
def message : LogEvent → Except Failure (List CodePoint)
  | providerFault t provider className =>
    .ok (Text.points "memory_stats provider fault trace_id=" ++ t ++ Text.points " provider=" ++
      provider.points ++ Text.points (" error=" ++ className))
  | sinkFailed t provider className =>
    .ok (Text.points "memory_stats error sink failed trace_id=" ++ t ++
      Text.points " provider=" ++ provider.points ++ Text.points (" error=" ++ className))
  | requestFailed t code =>
    code.written.map fun code =>
      Text.points "memory_stats failed trace_id=" ++ t ++ Text.points " code=" ++ code
  | requestDone t entries faults size full =>
    .ok (Text.points "memory_stats trace_id=" ++ t ++
      Text.points (" providers=" ++ toString entries ++ " faults=" ++ toString faults ++
        " bytes=" ++ toString size ++ " full=" ++ truthWord full))

end LogEvent

end UsageReport
