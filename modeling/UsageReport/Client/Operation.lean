/-
What is done with a client, one operation after the other.  An operation that fails leaves the
client as far as it came, so a request that fails may have started it.
-/
import UsageReport.Client

namespace UsageReport

namespace Client

/-- What is done with a client. -/
inductive Operation
  | register (name : Value) (subsystem : Provider)
  | start
  | close
  /-- Asks for a report, with the wish for details. -/
  | request (full : Value)
  /-- Asks for a report and takes the result out of the promise. -/
  | report (full : Value)
  | currentState

/-- What an operation gives. -/
inductive Answer
  | nothing
  | aggregator (a : Aggregator)
  | promise (p : Promise Report)
  | report (r : Report)
  | updates (us : List Update)

/-- A client in its world. -/
structure Scene where
  client : Client
  world : World

namespace Scene

/-- One operation: what it leaves behind, and what it gives. -/
def perform (s : Scene) : Operation → Scene × Outcome Answer
  | .register name subsystem =>
    match s.client.register name subsystem with
    | .ok c => ({ s with client := c }, .ok .nothing)
    | .error f => (s, .error f)
  | .start =>
    match s.client.start with
    | .ok (c, a) => ({ s with client := c }, .ok (.aggregator a))
    | .error f => (s, .error f)
  | .close =>
    match s.client.close with
    | .ok c => ({ s with client := c }, .ok .nothing)
    | .error f => (s, .error f)
  | .request full =>
    let r := s.client.request s.world full
    (⟨r.client, r.world⟩, r.promise.map .promise)
  | .report full =>
    let r := s.client.request s.world full
    (⟨r.client, r.world⟩, r.report.map .report)
  | .currentState => (s, s.client.currentState.map .updates)

/-- What operations leave behind, one after the other, whatever they give. -/
def run (s : Scene) (operations : List Operation) : Scene :=
  operations.foldl (fun s op => (s.perform op).1) s

end Scene

end Client

end UsageReport
