/-
The assembly of a report.  All providers of a registry are called once, in order, each with a
list of its own to write to.  With isolation, a provider that raises or leaves unusable pieces
loses its entry only: the entry then holds the fault marker, and the fault is logged and
reported.  Without it, the first fault ends the assembly.  Interruptions always do.
-/
import UsageReport.Envelope
import UsageReport.Provider.Fragment
import UsageReport.Settings.Basic
import UsageReport.World

namespace UsageReport

open Text (CodePoint)

structure Assembly where
  text : List CodePoint
  entries : Nat
  /-- The names of the entries that hold the fault marker, in order. -/
  faults : List Name
  deriving DecidableEq, Repr

namespace Assembly

/-- The word that stands for an entry lost to a fault. -/
def faultWord : String := "provider_fault"

/-- The only piece of an entry lost to a fault. -/
def faultPiece (settings : Settings) : List CodePoint :=
  .char '"' :: settings.faultMarker.points ++ Text.points "\":\"" ++ Text.points faultWord ++
    [.char '"']

/-- The pieces of a list that must all be texts. -/
def textPieces : List Value → Except Failure (List (List CodePoint))
  | [] => .ok []
  | v :: rest =>
    match v.points? with
    | none => .error (.fragmentKind v.kindName)
    | some points => (textPieces rest).map (points :: ·)

/-- The pieces of a delivery that go into the report, or what is wrong with it. -/
def usable (settings : Settings) (d : Delivery) : Outcome (List (List CodePoint)) :=
  match d.fault with
  | some f => .error f
  | none =>
    match textPieces d.pieces with
    | .error failure => fail failure
    | .ok texts =>
      if settings.validateFragments then
        match checkFragmentText texts.flatten with
        | .ok () => .ok texts
        | .error failure => fail failure
      else .ok texts

/-- The trace that contained faults are told under: the one bound, or the root name. -/
def faultTrace (w : World) : TraceId := w.traces.bound.getD (Text.points rootText)

/-- Logs and reports a contained fault.  A sink that fails costs a line in the log only. -/
def tellFault (sink : Sink) (w : World) (provider : Name) (f : Fault) : World :=
  let trace := faultTrace w
  match sink.report (w.logs (.providerFault trace provider f.className)) f trace provider with
  | (w, .ok ()) => w
  | (w, .error failure) => w.logs (.sinkFailed trace provider failure.className)

/-- What a fault turns into when faults are not isolated: an error that holds the text of the fault,
or the failure to make that text. -/
def abortion (provider : Name) (f : Fault) : Fault :=
  match f.message with
  | .ok text => .known (ReportError.standard .providerFault
      [("provider", provider.value), ("error", .ofPoints text)]) (some f)
  | .error failure => .failed failure

/-- Calls the provider of an entry: its usable pieces, or nothing if it lost its entry. -/
def collect (settings : Settings) (sink : Sink) (full : Value) (w : World) (e : Entry) :
    World × Outcome (Option (List (List CodePoint))) :=
  let (record, delivery) := e.provider.take (e.call w.calls full w.traces.bound)
  let called := w.noteCall record
  match usable settings delivery with
  | .ok texts => (called, .ok (some texts))
  | .error f =>
    if !f.isCatchable then (called, .error f)
    else if settings.isolateFaults then (tellFault sink called e.name f, .ok none)
    else (called, .error (abortion e.name f))

/-- A walk through a registry: the envelope so far, and the entries lost so far. -/
structure Walk where
  envelope : Envelope
  faults : List Name

def Walk.put (s : Walk) (settings : Settings) (name : Name)
    (pieces : Option (List (List CodePoint))) : Outcome Walk :=
  let (texts, faults) := match pieces with
    | some texts => (texts, s.faults)
    | none => ([faultPiece settings], s.faults ++ [name])
  match s.envelope.add name.value (.list (texts.map .ofPoints)) with
  | (envelope, .ok ()) => .ok ⟨envelope, faults⟩
  | (_, .error f) => .error f

def walk (settings : Settings) (sink : Sink) (full : Value) :
    World → Walk → List Entry → World × Outcome Walk
  | w, s, [] => (w, .ok s)
  | w, s, e :: rest =>
    match collect settings sink full w e with
    | (w, .error f) => (w, .error f)
    | (w, .ok pieces) =>
      match s.put settings e.name pieces with
      | .error f => (w, .error f)
      | .ok s => walk settings sink full w s rest

def Walk.finish (s : Walk) : Outcome Assembly :=
  match s.envelope.build with
  | (envelope, .ok text) => .ok ⟨text, envelope.count, s.faults⟩
  | (_, .error f) => .error f

/-- Assembles the report of a registry. -/
def run (settings : Settings) (sink : Sink) (w : World) (registry : Registry) (full : Value) :
    World × Outcome Assembly :=
  match Envelope.new rootName.value with
  | .error f => (w, .error f)
  | .ok envelope =>
    match walk settings sink full w ⟨envelope, []⟩ registry.entries with
    | (w, .error f) => (w, .error f)
    | (w, .ok s) => (w, s.finish)

end Assembly

end UsageReport
