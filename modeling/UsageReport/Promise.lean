/-
Promises: channels for one result.  The first attempt to resolve claims the promise, and all
later ones are refused.  The future behind it takes the result unless it was cancelled before;
then those who wait for it are told, and only after that the caller's reaction runs.
-/
import UsageReport.Trace

namespace UsageReport

/-- What the caller's function does when it gets the result. -/
inductive Reaction
  | accept
  /-- It raises a fault. -/
  | raise (fault : Fault)
  | again

/-- The state of the future behind a promise. -/
inductive Future (α : Type)
  | pending
  | cancelled
  | value (a : α)
  | error (f : Fault)

/-- What became known to whom: the caller's functions, or those who wait. -/
inductive Event (α : Type)
  | value (a : α)
  | error (f : Fault)
  | done (tag : Value)

/-- An event, and the trace that was bound when it happened. -/
structure Notice (α : Type) where
  event : Event α
  trace : Option TraceId

/-- A channel for one result. -/
structure Promise (α : Type) where
  onValue : Option Reaction
  onError : Option Reaction
  /-- Whether someone tried to resolve it. -/
  claimed : Bool := false
  future : Future α := .pending
  /-- The tags of those who wait for the future. -/
  waiting : List Value := []
  notices : List (Notice α) := []

namespace Promise

variable {α : Type}

/-- A promise that nobody resolved yet. -/
def new (onValue onError : Option Reaction) : Promise α := { onValue, onError }

/-- The refusal of a second result. -/
def alreadyResolved : Fault := .standard .promiseAlreadyResolved []

/-- Claims the promise for a result. -/
def claim (p : Promise α) : Outcome (Promise α) :=
  if p.claimed then .error alreadyResolved else .ok { p with claimed := true }

def done (p : Promise α) : Bool := p.claimed

def note (p : Promise α) (trace : Option TraceId) (event : Event α) : Promise α :=
  { p with notices := p.notices ++ [⟨event, trace⟩] }

/-- Tells all who wait that the future is done. -/
def tellWaiting (p : Promise α) (trace : Option TraceId) : Promise α :=
  { p with
    notices := p.notices ++ p.waiting.map fun tag => ⟨.done tag, trace⟩
    waiting := [] }

/-- Runs the caller's function, if there is one, with an event. -/
def react (p : Promise α) (trace : Option TraceId) (reaction : Option Reaction)
    (event : Event α) : Promise α × Outcome Unit :=
  match reaction with
  | none => (p, .ok ())
  | some .accept => (p.note trace event, .ok ())
  | some (.raise f) => (p.note trace event, .error f)
  | some .again =>
    match (p.note trace event).claim with
    | .ok claimed => (claimed, .ok ())
    | .error f => (p.note trace event, .error f)

/-- Puts an end state into the future and runs the caller's function. -/
def resolve (p : Promise α) (trace : Option TraceId) (state : Future α)
    (reaction : Option Reaction) (event : Event α) : Promise α × Outcome Unit :=
  match p.claim with
  | .error f => (p, .error f)
  | .ok p =>
    match p.future with
    | .pending => ({ p with future := state }.tellWaiting trace).react trace reaction event
    | _ => (p, fail .invalidState)

def setValue (p : Promise α) (trace : Option TraceId) (a : α) : Promise α × Outcome Unit :=
  p.resolve trace (.value a) p.onValue (.value a)

def setError (p : Promise α) (trace : Option TraceId) (f : Fault) : Promise α × Outcome Unit :=
  p.resolve trace (.error f) p.onError (.error f)

/-- The result, without waiting. -/
def result (p : Promise α) : Outcome α :=
  match p.future with
  | .pending => fail .timeout
  | .cancelled => fail .cancelled
  | .value a => .ok a
  | .error f => .error f

/-- The fault that the future holds, if it is done. -/
def futureFault (p : Promise α) : Outcome (Option Fault) :=
  match p.future with
  | .pending => fail .timeout
  | .cancelled => fail .cancelled
  | .value _ => .ok none
  | .error f => .ok (some f)

/-- Cancels the future, if it is pending; tells whether it is cancelled. -/
def cancel (p : Promise α) (trace : Option TraceId) : Promise α × Bool :=
  match p.future with
  | .pending => ({ p with future := .cancelled }.tellWaiting trace, true)
  | .cancelled => (p, true)
  | _ => (p, false)

/-- Waits for the future; one that is done tells at once. -/
def onDone (p : Promise α) (trace : Option TraceId) (tag : Value) : Promise α :=
  match p.future with
  | .pending => { p with waiting := p.waiting ++ [tag] }
  | _ => p.note trace (.done tag)

end Promise

end UsageReport
