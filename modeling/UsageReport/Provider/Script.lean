/-
Scripted providers: behaviour written down as steps, run against a call.  Steps append pieces,
clear them, or end the call with a fault, possibly only on some of the calls.
-/
import UsageReport.Provider.Basic
import UsageReport.Provider.Fragment
import UsageReport.Value.Key

namespace UsageReport

/-- A step of a scripted provider. -/
inductive Step
  | emit (piece : Value)
  /-- Appends counters as one fragment. -/
  | fragment (counters : Pairs)
  /-- Appends whether details are wanted. -/
  | echo (name : String)
  /-- Appends the number of the call. -/
  | count (name : String)
  /-- Appends the trace that is bound. -/
  | trace (name : String)
  /-- Runs steps only if details are wanted. -/
  | whenFull (steps : List Step)
  | clear
  /-- Ends the call with a fault, on the calls listed or on all. -/
  | raise (fault : Fault) (on : Option (List Int))
  deriving Inhabited

def Call.wantsFull (call : Call) : Bool := (call.full.getD .null).truth

/-- A piece `"name":value` whose value is spelled out. -/
def namedPiece (name : String) (value : List Char) : Value :=
  .text ("\"" ++ name ++ "\":" ++ String.ofList value)

/-- The JSON spelling of the trace that is bound. -/
def traceSpelling : Option TraceId → List Char
  | none => "null".toList
  | some id => Json.writeEscaped id

mutual

/-- Runs a step on the pieces appended so far. -/
def Step.run (call : Call) (pieces : List Value) : Step → Delivery
  | .emit piece => ⟨pieces ++ [piece], none⟩
  | .fragment counters =>
    match fragmentOfPairs counters with
    | .ok text => ⟨pieces ++ [.text text], none⟩
    | .error failure => ⟨pieces, some (.failed failure)⟩
  | .echo name => ⟨pieces ++ [namedPiece name (Json.writeBool call.wantsFull)], none⟩
  | .count name => ⟨pieces ++ [namedPiece name (Decimal.digitChars call.number)], none⟩
  | .trace name => ⟨pieces ++ [namedPiece name (traceSpelling call.trace)], none⟩
  | .whenFull steps => if call.wantsFull then Step.runAll call pieces steps else ⟨pieces, none⟩
  | .clear => ⟨[], none⟩
  | .raise fault on =>
    if (on.map fun numbers => numbers.contains (call.number : Int)).getD true then
      ⟨pieces, some fault⟩
    else ⟨pieces, none⟩

/-- Runs steps in order, up to the first fault. -/
def Step.runAll (call : Call) (pieces : List Value) : List Step → Delivery
  | [] => ⟨pieces, none⟩
  | s :: rest =>
    match Step.run call pieces s with
    | ⟨pieces, none⟩ => Step.runAll call pieces rest
    | ended => ended

end

def scripted (identity : Nat) (signature : Signature) (steps : List Step) : Provider :=
  { identity, signature, behave := fun call => Step.runAll call [] steps }

/-- The fragment of counters, listed with possibly repeated names. -/
def countersFragment (counters : List (Value × Value)) : Except Failure String :=
  (Pairs.ofListed counters).bind fragmentOfPairs

/-- What a provider of counters appends: one fragment, or nothing if there are none. -/
def deliverCounters (counters : List (Value × Value)) : Delivery :=
  match countersFragment counters with
  | .ok text => ⟨if text = "" then [] else [.text text], none⟩
  | .error failure => ⟨[], some (.failed failure)⟩

/-- A provider of counters: it runs steps for their faults only, then reports the base
counters, and the extra ones if details are wanted. -/
def countersProvider (identity : Nat) (steps : List Step)
    (base extra : List (Value × Value)) : Provider :=
  { identity
    signature := .takesFull
    behave := fun call =>
      match (Step.runAll call [] steps).fault with
      | some f => ⟨[], some f⟩
      | none => deliverCounters (base ++ if call.wantsFull then extra else []) }

/-- A provider of counters that has none to give. -/
def unfinishedProvider (identity : Nat) : Provider :=
  { identity
    signature := .takesFull
    behave := fun _ => ⟨[], some (.raised "NotImplementedError" [])⟩ }

end UsageReport
