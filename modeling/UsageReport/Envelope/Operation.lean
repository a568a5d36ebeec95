/-
What is done with an envelope, one operation after the other: entries are added, and the report is
built.  Operations that fail are no reason to stop.
-/
import UsageReport.Envelope

namespace UsageReport

open Text (CodePoint)

namespace Envelope

/-- What is done with an envelope. -/
inductive Operation
  | add (name : Value) (parts : Parts)
  | build

/-- What an operation gives. -/
inductive Answer
  | added (outcome : Outcome Unit)
  | built (outcome : Outcome (List CodePoint))

/-- One operation: what it leaves behind, and what it gives. -/
def perform (e : Envelope) : Operation → Envelope × Answer
  | .add name parts => ((e.addParts name parts).1, .added (e.addParts name parts).2)
  | .build => (e.build.1, .built e.build.2)

/-- What operations leave behind, one after the other, whatever they give. -/
def run (e : Envelope) (operations : List Operation) : Envelope :=
  operations.foldl (fun e op => (e.perform op).1) e

end Envelope

end UsageReport
