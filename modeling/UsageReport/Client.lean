/-
The client: it owns the subsystems and the session, and drives the life of the aggregator.
Subsystems are registered before the start; the order of the report is fixed by it.
-/
import UsageReport.Aggregator
import UsageReport.Provider.Order

namespace UsageReport

structure Client where
  session : Session
  config : ConfigFile
  sink : Sink
  /-- The subsystems by name, in the order of registration. -/
  subsystems : List (Name × Provider)
  /-- The aggregator, while the client is started. -/
  aggregator : Option Aggregator

namespace Client

def new (session : Session) (config : ConfigFile) (sink : Sink) : Client :=
  ⟨session, config, sink, [], none⟩

def errorLog (config : ConfigFile) : ErrorLog := { path := config.errorsPath }

def metrics (config : ConfigFile) : Metrics := .new config.settings.sampleLimit

def started (c : Client) : Bool := c.aggregator.isSome

def register (c : Client) (name : Value) (p : Provider) : Outcome Client := do
  if c.started then
    fail .alreadyStarted
  else
    let name ← validateName name
    if (c.subsystems.map (·.1)).contains name then
      .error (duplicateName name)
    else
      pure { c with subsystems := c.subsystems ++ [(name, p)] }

def ordered (c : Client) : List (Name × Provider) :=
  (orderNames (c.subsystems.map (·.1.points))).filterMap fun points =>
    c.subsystems.find? (·.1.points == points)

def registry (c : Client) : Outcome Registry :=
  Registry.ofList (c.ordered.map fun s => (s.1.value, s.2))

/-- An aggregator for the subsystems, started. -/
def launch (c : Client) : Outcome Aggregator := do
  let registry ← c.registry
  let a : Aggregator :=
    { settings := c.config.settings, registry, sink := c.sink, host := some (some c.session)
      measured := true }
  a.startUp

/-- Starts the client, unless it is started, and gives the aggregator. -/
def start (c : Client) : Outcome (Client × Aggregator) :=
  match c.aggregator with
  | some a => .ok (c, a)
  | none =>
    match c.launch with
    | .ok a => .ok ({ c with aggregator := some a }, a)
    | .error f => .error f

def close (c : Client) : Outcome Client :=
  match c.aggregator with
  | none => .ok c
  | some a =>
    match a.tearDown with
    | .ok _ => .ok { c with aggregator := none }
    | .error f => .error f

/-- What a request leaves behind: the client, the world, and the promise. -/
structure Requested where
  client : Client
  world : World
  promise : Outcome (Promise Report)

/-- Requests a report, and starts the client for it. -/
def request (c : Client) (w : World) (full : Value) : Requested :=
  match c.start with
  | .error f => ⟨c, w, .error f⟩
  | .ok (c, a) =>
    match a.request w id full (.new none none) with
    | (w, p, .ok ()) => ⟨c, w, .ok p⟩
    | (w, _, .error f) => ⟨c, w, .error f⟩

def Requested.report (r : Requested) : Outcome Report := do
  let p ← r.promise
  p.result

/-- The notifications about the current state; a client that is not started has none. -/
def currentState (c : Client) : Outcome (List Update) :=
  match c.aggregator with
  | none => .ok []
  | some a => a.currentState []

end Client

end UsageReport
