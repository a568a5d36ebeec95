/-
What is done with an aggregator, one operation after the other, and what goes on around it in the
meantime.  Only the aggregator and the error log touch the metrics, so what happens elsewhere
leaves them alone.
-/
import UsageReport.Aggregator

namespace UsageReport

namespace Aggregator

variable {α : Type}

/-- What is done with an aggregator, or around it. -/
inductive Operation (α : Type)
  | startUp
  | tearDown
  /-- Asks for the notifications about the current state, with those to add to. -/
  | currentState (updates : List Update)
  /-- Asks for a report with the wish for details; `deliver` makes of it what the promise takes. -/
  | request (deliver : Report → α) (full : Value) (p : Promise α)
  /-- Something happens elsewhere: time passes, files change, a trace is bound. -/
  | elsewhere (change : World → World)

/-- What an operation gives; a promise is shown as the request leaves it. -/
inductive Answer (α : Type)
  | done (outcome : Outcome Unit)
  | updates (outcome : Outcome (List Update))
  | promise (p : Promise α) (outcome : Outcome Unit)

/-- An aggregator in its world. -/
structure Scene where
  aggregator : Aggregator
  world : World

namespace Scene

/-- One operation: what it leaves behind, and what it gives. -/
def perform (s : Scene) : Operation α → Scene × Answer α
  | .startUp =>
    match s.aggregator.startUp with
    | .ok a => ({ s with aggregator := a }, .done (.ok ()))
    | .error f => (s, .done (.error f))
  | .tearDown =>
    match s.aggregator.tearDown with
    | .ok a => ({ s with aggregator := a }, .done (.ok ()))
    | .error f => (s, .done (.error f))
  | .currentState updates => (s, .updates (s.aggregator.currentState updates))
  | .request deliver full p =>
    let (w, p, outcome) := s.aggregator.request s.world deliver full p
    ({ s with world := w }, .promise p outcome)
  | .elsewhere change =>
    ({ s with world := { change s.world with metrics := s.world.metrics } }, .done (.ok ()))

/-- What operations leave behind, one after the other, whatever they give. -/
def run (s : Scene) (operations : List (Operation α)) : Scene :=
  operations.foldl (fun s op => (s.perform op).1) s

end Scene

end Aggregator

end UsageReport
