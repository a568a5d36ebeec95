/-
Exchanges over a promise.  The caller's functions and those who wait for the future may do
anything with the promise while they are told of the result: set it again, cancel the future, wait
for it once more, and raise faults.  An exchange is a promise together with those who are being
told, and a move is what the innermost of them does next, or the holder of the promise if nobody
is being told.
-/
import UsageReport.Promise

namespace UsageReport

/-- What a use of a promise comes to. -/
inductive Answer (α : Type)
  | set (outcome : Outcome Unit)
  | result (outcome : Outcome α)
  | cancel (cancelled : Bool)
  | registered

/-- Someone who is being told, and what follows. -/
inductive Frame (α : Type)
  /-- One who waits is told.  The others follow, after them the caller's function, if it is due,
  and then the use that told them has its answer. -/
  | telling (rest : List Value) (last : Option (Event α)) (answer : Answer α)
  /-- The caller's function runs. -/
  | calling

/-- A promise in use. -/
structure Exchange (α : Type) where
  promise : Promise α
  /-- Who is being told, the innermost first. -/
  running : List (Frame α) := []

/-- What the one whose turn it is does. -/
inductive Move (α : Type)
  | setValue (a : α)
  | setError (f : Fault)
  | result
  | cancel
  | onDone (tag : Value)
  /-- The innermost of those who are told leaves, with a fault or without one. -/
  | leave (fault : Option Fault)

namespace Exchange

variable {α : Type}

/-- Tells the first of those who wait, or else the caller's function, if it is due; if nobody is
left, the use has its answer. -/
def tell (x : Exchange α) (trace : Option TraceId) (tags : List Value) (last : Option (Event α))
    (answer : Answer α) : Exchange α × Option (Answer α) :=
  match tags, last with
  | tag :: rest, last =>
    (⟨x.promise.note trace (.done tag), .telling rest last answer :: x.running⟩, none)
  | [], some event => (⟨x.promise.note trace event, .calling :: x.running⟩, none)
  | [], none => (x, some answer)

/-- Puts an end state into the future and tells all who wait for it. -/
def close (x : Exchange α) (trace : Option TraceId) (state : Future α) (last : Option (Event α))
    (answer : Answer α) : Exchange α × Option (Answer α) :=
  tell { x with promise := { x.promise with future := state, waiting := [] } } trace
    x.promise.waiting last answer

/-- Sets the result; the caller's function is due if there is one. -/
def resolve (x : Exchange α) (trace : Option TraceId) (state : Future α)
    (reaction : Option Reaction) (event : Event α) : Exchange α × Option (Answer α) :=
  match x.promise.claim with
  | .error f => (x, some (.set (.error f)))
  | .ok p =>
    match p.future with
    | .pending => close { x with promise := p } trace state (reaction.map fun _ => event)
        (.set (.ok ()))
    | _ => ({ x with promise := p }, some (.set (fail .invalidState)))

/-- The innermost of those who are told leaves.  A fault of one who waits is dropped; what an
interruption there would do is not defined, so it is no move. -/
def leave (x : Exchange α) (trace : Option TraceId) (fault : Option Fault) :
    Exchange α × Option (Answer α) :=
  match x.running with
  | [] => (x, none)
  | .telling rest last answer :: outer =>
    if fault.all Fault.isCatchable then tell { x with running := outer } trace rest last answer
    else (x, none)
  | .calling :: outer =>
    match fault with
    | none => ({ x with running := outer }, some (.set (.ok ())))
    | some f => ({ x with running := outer }, some (.set (.error f)))

/-- Cancels the future, if it is pending. -/
def cancel (x : Exchange α) (trace : Option TraceId) : Exchange α × Option (Answer α) :=
  match x.promise.future with
  | .pending => x.close trace .cancelled none (.cancel true)
  | .cancelled => (x, some (.cancel true))
  | _ => (x, some (.cancel false))

/-- Waits for the future; one that is done tells at once. -/
def wait (x : Exchange α) (trace : Option TraceId) (tag : Value) :
    Exchange α × Option (Answer α) :=
  match x.promise.future with
  | .pending =>
    ({ x with promise := { x.promise with waiting := x.promise.waiting ++ [tag] } },
      some .registered)
  | _ => x.tell trace [tag] none .registered

/-- One move, and the answer of the use that is over with it, if one is. -/
def step (x : Exchange α) (trace : Option TraceId) : Move α → Exchange α × Option (Answer α)
  | .setValue a => x.resolve trace (.value a) x.promise.onValue (.value a)
  | .setError f => x.resolve trace (.error f) x.promise.onError (.error f)
  | .result => (x, some (.result x.promise.result))
  | .cancel => x.cancel trace
  | .onDone tag => x.wait trace tag
  | .leave fault => x.leave trace fault

/-- Moves one after the other, with the answer that the last of them gave. -/
def run (trace : Option TraceId) (s : Exchange α × Option (Answer α)) (moves : List (Move α)) :
    Exchange α × Option (Answer α) :=
  moves.foldl (fun s m => s.1.step trace m) s

/-- The exchange over a new promise after moves. -/
def after (onValue onError : Option Reaction) (trace : Option TraceId) (moves : List (Move α)) :
    Exchange α :=
  (run trace (⟨.new onValue onError, []⟩, none) moves).1

end Exchange

end UsageReport
