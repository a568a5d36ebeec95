/-
Faults: what ends an operation early.  A fault is raised by a provider or a caller, is a
failure of this library, a rejected set of fields, or one of the library's own errors with a
code, a message for users, a severity and a context.
-/
import UsageReport.Fault.Codec
import UsageReport.Fault.SourcePlace
import UsageReport.Redaction

namespace UsageReport

open Text (CodePoint)

inductive Severity
  | info
  | warn
  | error
  | critical
  deriving DecidableEq, Repr, Inhabited

def Severity.word : Severity → String
  | .info => "INFO"
  | .warn => "WARN"
  | .error => "ERROR"
  | .critical => "CRITICAL"

/-- The severity of a word. -/
def Severity.ofWord? (word : String) : Option Severity :=
  [Severity.info, .warn, .error, .critical].find? (·.word == word)

/-- A severity as an error carries it; callers may put any value in its place. -/
inductive SeverityMark
  | severity (s : Severity)
  | other (v : Value)
  deriving Inhabited

namespace SeverityMark

/-- The word for a severity.  Other values have none. -/
def word : SeverityMark → Except Failure String
  | .severity s => .ok s.word
  | .other v => .error (.noSuchField v.kindName "value")

/-- The text that shows a severity. -/
def shown : SeverityMark → Except Failure String
  | .severity s => .ok ("<Severity." ++ s.word ++ ": " ++ quoteText s.word ++ ">")
  | .other v => v.shown

/-- A severity is equal to its word. -/
def same : SeverityMark → SeverityMark → Bool
  | .severity a, .severity b => a == b
  | .severity s, .other v | .other v, .severity s => v == .text s.word
  | .other v, .other w => v == w

end SeverityMark

/-- The kinds of the library's own errors; `general` is the kind that all others refine. -/
inductive ErrorKind
  | general
  | config
  | duplicateProvider
  | invalidProviderName
  | providerFault
  | promiseAlreadyResolved
  | aggregatorClosed
  deriving DecidableEq, Repr, Inhabited

namespace ErrorKind

def all : List ErrorKind :=
  [general, config, duplicateProvider, invalidProviderName, providerFault,
    promiseAlreadyResolved, aggregatorClosed]

def className : ErrorKind → String
  | general => "MemStatsError"
  | config => "ConfigError"
  | duplicateProvider => "DuplicateProviderError"
  | invalidProviderName => "InvalidProviderNameError"
  | providerFault => "ProviderFaultError"
  | promiseAlreadyResolved => "PromiseAlreadyResolvedError"
  | aggregatorClosed => "AggregatorClosedError"

/-- The class name with the module it is listed under. -/
def qualifiedName (kind : ErrorKind) : String := "memstats.core.errors." ++ kind.className

def ofClassName? (name : String) : Option ErrorKind := all.find? (·.className == name)

/-- The code of a kind's errors; general errors bring their own. -/
def code : ErrorKind → String
  | general => ""
  | config => "config_error"
  | duplicateProvider => "duplicate_provider"
  | invalidProviderName => "invalid_provider_name"
  | providerFault => "provider_fault"
  | promiseAlreadyResolved => "promise_already_resolved"
  | aggregatorClosed => "aggregator_closed"

/-- The message for users that a kind has of itself. -/
def userMessage : ErrorKind → String
  | general => ""
  | config => "Configuration error."
  | duplicateProvider => "Provider name registered twice."
  | invalidProviderName => "Provider name cannot be used as a report key."
  | providerFault => "A statistics provider failed to report."
  | promiseAlreadyResolved => "Result channel was already resolved."
  | aggregatorClosed => "Statistics aggregator was torn down."

def severity : ErrorKind → Severity
  | config => .critical
  | providerFault => .warn
  | _ => .error

/-- Whether work can go on after an error of the kind. -/
def recoverable : ErrorKind → Bool
  | general | providerFault => true
  | _ => false

end ErrorKind

/-- One of the library's own errors.  Callers may put any value in most places. -/
structure ReportError where
  kind : ErrorKind
  code : Value
  userMessage : Value
  severity : SeverityMark
  recoverable : Value
  context : Value
  deriving Inhabited

namespace ReportError

/-- The error of a kind with the message and the context given. -/
def of (kind : ErrorKind) (userMessage : Value) (context : Pairs) : ReportError :=
  { kind
    code := .text kind.code
    userMessage
    severity := .severity kind.severity
    recoverable := .bool kind.recoverable
    context := .dict context }

/-- The error of a kind with its own message. -/
def standard (kind : ErrorKind) (context : Fields) : ReportError :=
  of kind (.text kind.userMessage) (context.map fun p => (.text p.1, p.2))

def message (e : ReportError) : Except Failure (List CodePoint) := do
  let code ← e.code.written
  let userMessage ← e.userMessage.written
  pure (code ++ Text.points ": " ++ userMessage)

/-- The context without secrets; an empty one of any kind counts as an empty dictionary. -/
def safeContext (e : ReportError) : Except Failure Value :=
  redact (if e.context.truth then e.context else .dict [])

/-- The error as a dictionary, if its severity has a word and its context can be redacted. -/
def toValue (e : ReportError) : Except Failure Value := do
  let word ← e.severity.word
  let context ← e.safeContext
  pure (.ofFields [("code", e.code), ("user_message", e.userMessage), ("severity", .text word),
    ("recoverable", .bool e.recoverable.truth), ("context", context)])

/-- The text that shows the error with all its parts. -/
def shown (e : ReportError) : Except Failure String := do
  let code ← e.code.shown
  let userMessage ← e.userMessage.shown
  let severity ← e.severity.shown
  let recoverable ← e.recoverable.shown
  let context ← e.context.shown
  pure (e.kind.className ++ "(code=" ++ code ++ ", user_message=" ++ userMessage ++
    ", severity=" ++ severity ++ ", recoverable=" ++ recoverable ++ ", context=" ++ context ++ ")")

/-- Errors are equal when their kinds and all parts are. -/
def same (a b : ReportError) : Bool :=
  a.kind == b.kind && a.code == b.code && a.userMessage == b.userMessage &&
    a.severity.same b.severity && a.recoverable == b.recoverable && a.context == b.context

end ReportError

/-- Why a field was rejected. -/
inductive ProblemKind
  | boolParsing
  | boolType
  | intParsing
  | intParsingSize
  | intType
  | intFromFloat
  | finiteNumber
  | atLeast
  | atMost
  | stringType
  | stringUnicode
  | floatParsing
  | floatType
  | dictType
  | modelType
  | missing
  | extraForbidden
  | frozenInstance
  | invalidKey
  /-- A rule of the field itself, with its message. -/
  | rule (message : String)
  deriving DecidableEq, Repr

def ProblemKind.word : ProblemKind → String
  | .boolParsing => "bool_parsing"
  | .boolType => "bool_type"
  | .intParsing => "int_parsing"
  | .intParsingSize => "int_parsing_size"
  | .intType => "int_type"
  | .intFromFloat => "int_from_float"
  | .finiteNumber => "finite_number"
  | .atLeast => "greater_than_equal"
  | .atMost => "less_than_equal"
  | .stringType => "string_type"
  | .stringUnicode => "string_unicode"
  | .floatParsing => "float_parsing"
  | .floatType => "float_type"
  | .dictType => "dict_type"
  | .modelType => "model_type"
  | .missing => "missing"
  | .extraForbidden => "extra_forbidden"
  | .frozenInstance => "frozen_instance"
  | .invalidKey => "invalid_key"
  | .rule _ => "value_error"

/-- A rejected field: where it stands and why. -/
structure Problem where
  location : List Value
  kind : ProblemKind

/-- What ends an operation early. -/
inductive Fault
  /-- Raised by a provider or a caller, with any arguments. -/
  | raised (className : String) (args : List Value)
  | failed (failure : Failure)
  | invalid (problems : List Problem)
  /-- A text that is no JSON, with the message that places the fault. -/
  | notJson (message : String)
  /-- One of the library's own errors, with the fault that led to it. -/
  | known (error : ReportError) (cause : Option Fault)
  deriving Inhabited

namespace Fault

/-- The error of a kind with its own message and no earlier cause. -/
def standard (kind : ErrorKind) (context : Fields) : Fault :=
  .known (ReportError.standard kind context) none

def className : Fault → String
  | .raised name _ => name
  | .failed failure => failure.className
  | .invalid _ => "ValidationError"
  | .notJson _ => "JSONDecodeError"
  | .known e _ => e.kind.className

/-- The class name as it stands in a traceback. -/
def qualifiedName : Fault → String
  | .known e _ => e.kind.qualifiedName
  | f => f.className

/-- The classes of faults that carry an error number and a wording. -/
def systemClasses : List String :=
  ["OSError", "BlockingIOError", "BrokenPipeError", "ChildProcessError",
    "ConnectionAbortedError", "ConnectionError", "ConnectionRefusedError",
    "ConnectionResetError", "FileExistsError", "FileNotFoundError", "InterruptedError",
    "IsADirectoryError", "NotADirectoryError", "PermissionError", "ProcessLookupError",
    "TimeoutError"]

/-- The class that an error number of the system selects. -/
def classOfNumber? (n : Int) : Option String :=
  [((1 : Int), "PermissionError"), (2, "FileNotFoundError"), (3, "ProcessLookupError"),
    (4, "InterruptedError"), (10, "ChildProcessError"), (11, "BlockingIOError"),
    (13, "PermissionError"), (17, "FileExistsError"), (20, "NotADirectoryError"),
    (21, "IsADirectoryError"), (32, "BrokenPipeError"), (103, "ConnectionAbortedError"),
    (104, "ConnectionResetError"), (108, "BrokenPipeError"), (110, "TimeoutError"),
    (111, "ConnectionRefusedError"), (114, "BlockingIOError"), (115, "BlockingIOError")].lookup n

/-- The text of arguments without a rule of their own: nothing, the one argument, or all. -/
def argumentsText : List Value → Except Failure (List CodePoint)
  | [] => .ok []
  | [x] => x.written
  | xs => (Value.tuple xs).written

/-- The number of a system error and its wording. -/
def systemHead (number wording : Value) : Except Failure (List CodePoint) := do
  let number ← number.written
  let wording ← wording.written
  pure (Text.points "[Errno " ++ number ++ Text.points "] " ++ wording)

/-- The text of a system error: number, wording and the files it is about.  Fewer than two
arguments, or more than five, have no such meaning. -/
def systemText : List Value → Except Failure (List CodePoint)
  | [number, wording] => systemHead number wording
  | [number, wording, file] | [number, wording, file, _] => about number wording file .null
  | [number, wording, file, _, second] => about number wording file second
  | args => argumentsText args
where
  /-- The text of a system error about up to two files. -/
  about (number wording file second : Value) : Except Failure (List CodePoint) := do
    let head ← systemHead number wording
    match file, second with
    | .null, _ => pure head
    | _, .null =>
      let file ← file.shown
      pure (head ++ Text.points (": " ++ file))
    | _, _ =>
      let file ← file.shown
      let second ← second.shown
      pure (head ++ Text.points (": " ++ file ++ " -> " ++ second))

/-- The arguments of a blocked operation that make up its text: a number in the third place
tells how much was written, and names no file. -/
def blockedArguments : List Value → List Value
  | number :: wording :: .int _ :: _ | number :: wording :: .bool _ :: _ => [number, wording]
  | args => args

def raisedText (className : String) (args : List Value) : Except Failure (List CodePoint) :=
  if className = "BlockingIOError" ∧ args.length ≤ 5 then systemText (blockedArguments args)
  else if systemClasses.contains className then systemText args
  else if SourcePlace.classes.contains className then SourcePlace.message args
  else if (CodecArgument.shape? className).isSome then
    (CodecFault.message? args).getD (argumentsText args)
  else match className, args with
    | "KeyError", [x] => x.shown.map Text.points
    | _, _ => argumentsText args

/-- The text of a fault.  Making it fails if it needs the text of a value that has none. -/
def message : Fault → Except Failure (List CodePoint)
  | .raised name args => raisedText name args
  | .failed failure => .ok failure.message
  | .invalid _ => .ok (Text.points "<validation>")
  | .notJson text => .ok (Text.points text)
  | .known e _ => e.message

/-- The text of a fault as tracebacks tell it: a note in place of one that cannot be made. -/
def told (f : Fault) : List CodePoint :=
  match f.message with
  | .ok text => text
  | .error _ => Text.points "<exception str() failed>"

/-- The classes of interruptions and of ends of the program. -/
def interruptions : List String :=
  ["KeyboardInterrupt", "SystemExit", "GeneratorExit", "BaseException"]

/-- Whether isolation may catch a fault.  Interruptions and the end of the program pass. -/
def isCatchable : Fault → Bool
  | .raised name _ => !(interruptions.contains name)
  | .failed (.exit _) => false
  | _ => true

def isKnown : Fault → Bool
  | .known _ _ => true
  | _ => false

/-- The code under which a fault is logged: that of the library's own errors, or the class. -/
def logCode : Fault → Value
  | .known e _ => e.code
  | f => .text f.className

end Fault

/-- The result of an operation that may end early. -/
abbrev Outcome (α : Type) := Except Fault α

def fail {α : Type} (failure : Failure) : Outcome α := .error (.failed failure)

/-- The member of a list at a place; a negative place counts from the end. -/
def memberAt {α : Type} (xs : List α) (place : Int) : Outcome α :=
  let i := if place < 0 then place + xs.length else place
  match if i < 0 then none else xs[i.toNat]? with
  | some x => .ok x
  | none => .error (.raised "IndexError" [.text "list index out of range"])

/-- Turns a failure into a fault. -/
def Outcome.ofExcept {α : Type} : Except Failure α → Outcome α
  | .ok x => .ok x
  | .error failure => fail failure

end UsageReport
