/-
The error log: one line of JSON for every fault that is reported, appended to a file.  Faults
that are none of the library's own errors are turned into one first; contexts are written
without their secrets.  A line that cannot be encoded or written leaves nothing behind.
-/
import UsageReport.FileTree
import UsageReport.Json.Writer
import UsageReport.Metrics.Basic

namespace UsageReport

open Text (CodePoint)

/-- The fault that the named arguments of a provider fault cause, if they clash.  A name may hold
lone halves of surrogate pairs. -/
def providerClash (context : Pairs) : Option Failure :=
  let owner := ErrorKind.providerFault.className ++ ".__init__()"
  if context.any (fun p => p.1 == .text "error") then
    some (.repeatedName (ErrorKind.providerFault.qualifiedName ++ "()") "error")
  else if context.any (fun p => p.1.points?.isNone) then some .keywordKind
  else if context.any (fun p => p.1 == .text "self") then some (.repeatedArgument owner "self")
  else none

/-- A fault as one of the library's own errors.  Those pass as they are; others keep their
class in the context, and provider faults, which have a kind of their own, also their text.  That is
made first. -/
def normalize (f : Fault) (subsystem : Value) (context : Pairs) : Outcome Fault :=
  match f with
  | .known e cause => .ok (.known e cause)
  | f =>
    let full := context.putNew (.text "exception_type") (.text f.className)
    if subsystem == .text "provider" then
      match f.message with
      | .error failure => fail failure
      | .ok text =>
        match providerClash full with
        | some failure => fail failure
        | none =>
          let message := (full.get? (.text "user_message")).getD
            (.text ErrorKind.providerFault.userMessage)
          let rest := full.filter fun p => !(p.1 == .text "user_message")
          .ok (.known (ReportError.of .providerFault message
            ((.text "error", .ofPoints text) :: rest)) none)
    else
      .ok (.known
        { kind := .general
          code := .text "unknown_error"
          userMessage := .text "Something went wrong."
          severity := .severity .error
          recoverable := .bool true
          context := .dict full } none)

/-- The traceback of a fault that was never raised: its class and its text, and for a fault
about source text the place that it is about. -/
def tracebackText (f : Fault) : Except Failure (List CodePoint) :=
  match f with
  | .raised className args =>
    if SourcePlace.classes.contains className then SourcePlace.traceback className args
    else .ok plain
  | _ => .ok plain
where
  /-- The class and the text. -/
  plain : List CodePoint :=
    if f.told = [] then Text.points (f.qualifiedName ++ "\n")
    else Text.points (f.qualifiedName ++ ": ") ++ f.told ++ Text.points "\n"

/-- Where and how errors are logged. -/
structure ErrorLog where
  path : PathName
  tracebacks : Bool := false
  /-- Whether rows are counted in the metrics. -/
  counts : Bool := true

namespace ErrorLog

/-- The row of an error, whose context is given without its secrets. -/
def row (time severity : String) (e : ReportError) (trace subsystem safeContext : Value)
    (traceback : Option (List CodePoint)) : Value :=
  .ofFields ([("ts", .text time), ("trace_id", trace), ("subsystem", subsystem),
    ("error_code", e.code), ("severity", .text severity),
    ("recoverable", .bool e.recoverable.truth), ("user_message", e.userMessage),
    ("safe_context", safeContext)] ++
    match traceback with
    | none => []
    | some s => [("internal_context", .ofFields [("traceback", .ofPoints s)])])

/-- The line of the log for an error: it has none if its severity has no word, if its context cannot
be redacted, or if a part of it has no JSON form.  `internal` is the fault that led to it, for the
traceback. -/
def line (tracebacks : Bool) (time : String) (e : ReportError) (trace subsystem : Value)
    (internal : Option Fault) : Except Failure String := do
  let severity ← e.severity.word
  let safeContext ← e.safeContext
  let traceback ← if tracebacks then internal.mapM tracebackText else pure none
  Json.Style.line.text (row time severity e trace subsystem safeContext traceback)

/-- The series that counts the rows of a subsystem and a code. -/
def series (subsystem code : Value) : SeriesKey :=
  .of (.text "errors_total") [(.text "subsystem", subsystem), (.text "code", code)]

/-- What a fault lacks that is none of the library's own errors. -/
def missingField (f : Fault) : Failure :=
  .noSuchField f.className (if f.className = "SystemExit" then "severity" else "code")

/-- What reports change: the files and the metrics. -/
structure Effects where
  files : FileTree
  metrics : Metrics

def prepare (log : ErrorLog) (files : FileTree) : FileTree × Outcome Unit :=
  files.ensureName log.path.home

/-- Writes an error; `internal` is the fault that led to it, for the traceback. -/
def write (log : ErrorLog) (time : String) (s : Effects) (f : Fault) (trace subsystem : Value)
    (internal : Option Fault) : Effects × Outcome Unit :=
  match f with
  | .known e _ =>
    match line log.tracebacks time e trace subsystem internal with
    | .error failure => (s, fail failure)
    | .ok line =>
      match s.files.appendName log.path (line ++ "\n") with
      | .error refused => (s, .error refused)
      | .ok files =>
        let metrics :=
          if log.counts then s.metrics.add (series subsystem e.code) 1 else s.metrics
        (⟨files, metrics⟩, .ok ())
  | f => (s, fail (missingField f))

/-- Reports a fault: turns it into an error and writes that. -/
def report (log : ErrorLog) (time : String) (s : Effects) (f : Fault) (trace subsystem : Value)
    (context : Pairs) : Effects × Outcome Fault :=
  match normalize f subsystem context with
  | .error failure => (s, .error failure)
  | .ok e =>
    match log.write time s e trace subsystem (some f) with
    | (s, .ok ()) => (s, .ok e)
    | (s, .error failure) => (s, .error failure)

end ErrorLog

end UsageReport
