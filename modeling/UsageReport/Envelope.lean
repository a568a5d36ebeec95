/-
The envelope of a report: entries between a root name and closing braces, written piece by
piece.  Commas stand between entries only.  An addition whose parts cannot be walked through to
their end leaves the name, the opening and the parts found behind.
-/
import UsageReport.Provider.Name
import UsageReport.Value.Numeric

namespace UsageReport

open Text (CodePoint)

/-- The text of the root name. -/
def rootText : String := "memory_stats"

def rootName : Name := ⟨Text.points rootText, by decide, by decide⟩

/-- A report under construction. -/
structure Envelope where
  pieces : List Value
  names : List Name
  /-- How many entries were finished. -/
  count : Nat
  closed : Bool

namespace Envelope

/-- The opening of an object under a name. -/
def opening (name : Name) : List CodePoint := .char '"' :: name.points ++ Text.points "\":\x7b"

def new (root : Value) : Outcome Envelope := do
  let root ← validateName root
  pure ⟨[.text "\x7b", .ofPoints (opening root)], [], 0, false⟩

/-- The pieces before the pieces of an entry. -/
def lead (e : Envelope) (name : Name) : List Value :=
  (if e.count = 0 then [] else [.text ","]) ++ [.ofPoints (opening name)]

/-- The parts of an entry as a walk through them finds them: those found, and the fault that ends
the walk early, if one does. -/
structure Parts where
  found : List Value
  fault : Option Fault := none

/-- The parts that a value gives; one that cannot be walked through gives a fault only. -/
def Parts.ofValue (v : Value) : Parts :=
  match v.members with
  | .ok members => { found := members }
  | .error failure => { found := [], fault := some (.failed failure) }

/-- The name under which an entry may be added now, or why there is none. -/
def accept (e : Envelope) (name : Value) : Outcome Name :=
  if e.closed then fail .envelopeBuilt
  else match validateName name with
    | .error f => .error f
    | .ok name => if e.names.contains name then .error (duplicateName name) else .ok name

/-- The envelope with an entry begun: its name is taken, and the parts found follow the opening. -/
def beginEntry (e : Envelope) (name : Name) (found : List Value) : Envelope :=
  { e with pieces := e.pieces ++ e.lead name ++ found, names := e.names ++ [name] }

/-- The envelope with the entry that was begun last finished. -/
def endEntry (e : Envelope) : Envelope :=
  { e with pieces := e.pieces ++ [.text "\x7d"], count := e.count + 1 }

/-- Adds an entry of parts.  The envelope comes back also when the addition fails. -/
def addParts (e : Envelope) (name : Value) (parts : Parts) : Envelope × Outcome Unit :=
  match e.accept name with
  | .error f => (e, .error f)
  | .ok name =>
    match parts.fault with
    | some f => (e.beginEntry name parts.found, .error f)
    | none => ((e.beginEntry name parts.found).endEntry, .ok ())

/-- Adds an entry of the parts that a value gives. -/
def add (e : Envelope) (name parts : Value) : Envelope × Outcome Unit :=
  e.addParts name (.ofValue parts)

/-- The envelope with its closing braces. -/
def close (e : Envelope) : Envelope :=
  if e.closed then e
  else { e with pieces := e.pieces ++ [.text "\x7d", .text "\x7d"], closed := true }

/-- Closes the envelope and joins its pieces. -/
def build (e : Envelope) : Envelope × Outcome (List CodePoint) :=
  (e.close, match joinTexts 0 e.close.pieces with
    | .ok points => .ok points
    | .error failure => fail failure)

end Envelope

end UsageReport
