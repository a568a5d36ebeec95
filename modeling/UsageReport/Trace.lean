/-
Trace ids.  A request runs under one id: the caller's, if one is bound, or a fresh one.  A
binding lasts for a body and is undone when the body ends, however it ends.
-/
import UsageReport.Fault

namespace UsageReport

/-- A trace id: a text, whole or not. -/
abbrev TraceId := List Text.CodePoint

/-- What is bound now, and how many fresh ids were handed out. -/
structure TraceState where
  bound : Option TraceId
  handedOut : Nat
  deriving DecidableEq, Repr

/-- The fresh id of a number: thirty-two hexadecimal digits. -/
def freshTrace (n : Nat) : TraceId := (Text.hexDigits 32 n).map .char

namespace TraceState

def initial : TraceState := ⟨none, 0⟩

/-- The id that is bound, or else the value given. -/
def current (s : TraceState) (otherwise : Value) : Value :=
  match s.bound with
  | some id => .ofPoints id
  | none => otherwise

def fresh (s : TraceState) : TraceId × TraceState :=
  (freshTrace s.handedOut, { s with handedOut := s.handedOut + 1 })

/-- The id for a body that is given none: the id that is bound, or a fresh one. -/
def inherit (s : TraceState) : TraceId × TraceState :=
  match s.bound with
  | some id => (id, s)
  | none => s.fresh

/-- The id for a body: the text of the value given, if it counts as true and has a text, or else
one as if none were given. -/
def resolve (s : TraceState) (id : Value) : Except Failure (TraceId × TraceState) :=
  if id.truth then id.written.map fun id => (id, s) else .ok s.inherit

def bind (s : TraceState) (id : TraceId) : TraceState := { s with bound := some id }

/-- Restores the binding of an earlier state. -/
def restore (s earlier : TraceState) : TraceState := { s with bound := earlier.bound }

end TraceState

/-- Programs that read, bind, raise and catch. -/
inductive TraceProgram
  /-- Reads the current id, with a value in case none is bound. -/
  | current (otherwise : Value)
  /-- Takes a fresh id without binding it. -/
  | fresh
  /-- Binds an id around a body; a value that has no text is raised about instead. -/
  | enter (id : Value) (body : List TraceProgram)
  | raise (fault : Fault)
  /-- Runs a body and catches what it raises. -/
  | attempt (body : List TraceProgram)
  deriving Inhabited

/-- What a trace program shows. -/
inductive TraceEvent
  | current (id : Value)
  | fresh (id : TraceId)
  | enter (id : TraceId)
  | exit (bound : Option TraceId)
  | caught (className : String)

/-- The result of a trace program: the state after it, what it showed, and what it raised. -/
structure TraceRun where
  state : TraceState
  events : List TraceEvent
  raised : Option Fault

mutual

def TraceProgram.run (s : TraceState) : TraceProgram → TraceRun
  | .current otherwise => ⟨s, [.current (s.current otherwise)], none⟩
  | .fresh =>
    let (id, s) := s.fresh
    ⟨s, [.fresh id], none⟩
  | .enter id body =>
    match s.resolve id with
    | .error failure => ⟨s, [], some (.failed failure)⟩
    | .ok (id, resolved) =>
      let inner := TraceProgram.runAll (resolved.bind id) body
      let after := inner.state.restore s
      match inner.raised with
      | none => ⟨after, .enter id :: inner.events ++ [.exit after.bound], none⟩
      | some f => ⟨after, .enter id :: inner.events, some f⟩
  | .raise f => ⟨s, [], some f⟩
  | .attempt body =>
    let inner := TraceProgram.runAll s body
    match inner.raised with
    | none => inner
    | some f => ⟨inner.state, inner.events ++ [.caught f.className], none⟩

/-- Runs nodes in order, up to the first that raises. -/
def TraceProgram.runAll (s : TraceState) : List TraceProgram → TraceRun
  | [] => ⟨s, [], none⟩
  | node :: rest =>
    let first := TraceProgram.run s node
    match first.raised with
    | some _ => first
    | none =>
      let others := TraceProgram.runAll first.state rest
      ⟨others.state, first.events ++ others.events, others.raised⟩

end

end UsageReport
