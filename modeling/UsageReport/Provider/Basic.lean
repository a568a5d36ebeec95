/-
Providers: the subsystems that describe their own usage.  A provider answers a call with the
pieces it appends and the way it ends; the call tells it whether details are wanted, how often
it has been called, and which trace is bound.
-/
import UsageReport.Provider.Name
import UsageReport.Trace

namespace UsageReport

/-- What a provider learns from a call. -/
structure Call where
  /-- How often the provider has been called, this call included. -/
  number : Nat
  /-- The wish for details, where the provider takes it. -/
  full : Option Value
  trace : Option TraceId

/-- What a call leaves behind: the pieces appended, and the fault that ended it, if any. -/
structure Delivery where
  pieces : List Value
  fault : Option Fault

/-- The pieces of a call that ended well. -/
def Delivery.result (d : Delivery) : Outcome (List Value) :=
  match d.fault with
  | none => .ok d.pieces
  | some f => .error f

/-- How a provider's reporting operation takes its arguments. -/
inductive Signature
  /-- There is no such operation. -/
  | absent
  /-- There is something of that name which cannot be called. -/
  | notCallable
  /-- It takes the wish for details by name. -/
  | takesFull
  /-- It does not, or nothing is known about it. -/
  | plain
  deriving DecidableEq, Repr

/-- A subsystem that may describe its usage.  The identity tells its calls from others. -/
structure Provider where
  identity : Nat
  signature : Signature
  behave : Call → Delivery

def Provider.acceptsFull (p : Provider) : Bool := p.signature == .takesFull

/-- Whether a provider has a reporting operation at all, callable or not. -/
def Provider.hasStatistics (p : Provider) : Bool := p.signature != .absent

def Provider.isCallable (p : Provider) : Bool :=
  p.signature == .takesFull || p.signature == .plain

/-- One call of a provider: whom, and the wish for details if it was passed. -/
structure CallRecord where
  provider : Nat
  full : Option Value

/-- How often a provider was called before. -/
def callCount (calls : List CallRecord) (identity : Nat) : Nat :=
  calls.countP (·.provider == identity)

/-- A named provider of a registry. -/
structure Entry where
  name : Name
  provider : Provider

namespace Entry

/-- The call that the provider gets, given the calls before: it is told the wish for details if it
takes it. -/
def call (e : Entry) (calls : List CallRecord) (full : Value) (trace : Option TraceId) : Call where
  number := callCount calls e.provider.identity + 1
  full := if e.provider.acceptsFull then some full else none
  trace := trace

end Entry

/-- A call of the provider: what is noted of it, and what the provider answers. -/
def Provider.take (p : Provider) (call : Call) : CallRecord × Delivery :=
  (⟨p.identity, call.full⟩, p.behave call)

/-- Named providers in report order.  No name stands twice, and every provider can be called. -/
structure Registry where
  entries : List Entry
  names_nodup : (entries.map (·.name)).Nodup
  callable : ∀ e ∈ entries, e.provider.isCallable = true

namespace Registry

def empty : Registry := ⟨[], List.nodup_nil, fun _ h => absurd h List.not_mem_nil⟩

def names (r : Registry) : List Name := r.entries.map (·.name)

def size (r : Registry) : Nat := r.entries.length

/-- Whether a value is the name of an entry. -/
def contains (r : Registry) (name : Value) : Bool := r.entries.any fun e => e.name.value == name

def get? (r : Registry) (name : Value) : Option Provider :=
  (r.entries.find? (fun e => e.name.value == name)).map (·.provider)

/-- Adds an entry whose name is new and whose provider can be called. -/
def push (r : Registry) (e : Entry) (hname : e.name ∉ r.names)
    (hcall : e.provider.isCallable = true) : Registry where
  entries := r.entries ++ [e]
  names_nodup := by
    rw [List.map_append, List.nodup_append]
    refine ⟨r.names_nodup, by simp, ?_⟩
    intro old hold new hnew
    rw [List.map_singleton, List.mem_singleton] at hnew
    rintro rfl
    exact hname (hnew ▸ hold)
  callable := by
    intro other hother
    rcases List.mem_append.mp hother with hold | hnew
    · exact r.callable other hold
    · rw [List.mem_singleton.mp hnew]
      exact hcall

/-- Adds a pair: the name must be valid and new, and the provider callable. -/
def add (r : Registry) (name : Value) (p : Provider) : Outcome Registry :=
  match validateName name with
  | .error f => .error f
  | .ok name =>
    if hname : name ∈ r.names then .error (duplicateName name)
    else if hcall : p.isCallable = true then .ok (r.push ⟨name, p⟩ hname hcall)
    else fail (.noStatistics name.value.describe)

/-- The registry of a list of pairs, or the fault of the first pair that is refused. -/
def ofList (pairs : List (Value × Provider)) : Outcome Registry :=
  pairs.foldlM (fun r p => r.add p.1 p.2) empty

end Registry

end UsageReport
