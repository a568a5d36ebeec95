/-
Building faults from a class name, arguments in order and named arguments, with the failures
that wrong arguments cause.  The refined kinds of library errors take a message and keep all
other named arguments as their context; the general kind takes its five parts.
-/
import UsageReport.Fault

namespace UsageReport.Fault

open Text (CodePoint)

/-- The part of a message that tells how many arguments a constructor takes; the object under
construction counts as one. -/
def takesText (least most : Nat) : String :=
  "from " ++ toString least ++ " to " ++ toString most ++ " positional arguments"

/-- The first named argument that clashes with one already given in order. -/
def clash? (filled : List String) (named : Named) : Option String :=
  named.findSome? fun p => filled.find? fun name => Text.points name == p.1

def refined (kind : ErrorKind) (args : List Value) (named : Named) : Outcome ReportError :=
  let owner := kind.className ++ ".__init__()"
  let filled := "self" :: if args.isEmpty then [] else ["user_message"]
  match clash? filled named with
  | some name => fail (.repeatedArgument owner name)
  | none =>
    match args with
    | _ :: _ :: _ => fail (.tooManyArguments owner (takesText 1 2) (args.length + 1))
    | _ =>
      let own := Text.points "user_message"
      let message := (args.head? <|> named.lookup own).getD (.text kind.userMessage)
      let context := named.filter (·.1 != own)
      .ok (ReportError.of kind message (context.map fun p => (.ofPoints p.1, p.2)))

/-- The names of the parts of a general error, in order. -/
def generalParts : List String := ["code", "user_message", "severity", "recoverable", "context"]

def general (args : List Value) (named : Named) : Outcome ReportError := do
  let owner := ErrorKind.general.className ++ ".__init__()"
  let filled := "self" :: generalParts.take args.length
  let isTaken (name : List CodePoint) (names : List String) := (names.map Text.points).contains name
  match named.find? (fun p => isTaken p.1 filled || !isTaken p.1 generalParts) with
  | some p =>
    match clash? filled [p] with
    | some name => fail (.repeatedArgument owner name)
    | none => fail (.unexpectedArgument owner p.1)
  | none => pure ()
  if 5 < args.length then
    fail (.tooManyArguments owner (takesText 3 6) (args.length + 1))
  let given := (generalParts.map Text.points).zip args ++ named
  let part? (name : String) : Option Value := given.lookup (Text.points name)
  let missing := (generalParts.take 2).filter fun n => (part? n).isNone
  if !missing.isEmpty then
    fail (.missingArguments owner missing)
  pure
    { kind := .general
      code := (part? "code").getD .null
      userMessage := (part? "user_message").getD .null
      severity := ((part? "severity").map .other).getD (.severity .error)
      recoverable := (part? "recoverable").getD (.bool true)
      context := (part? "context").getD (.dict []) }

def construct (kind : ErrorKind) (args : List Value) (given : Pairs) : Outcome ReportError :=
  match named? given with
  | none => fail .keywordKind
  | some named =>
    match kind with
    | .general => general args named
    | _ => refined kind args named

/-- The fault of a value that names no severity. -/
def noSeverity (v : Value) : Fault :=
  match v.shown with
  | .ok shown => .raised "ValueError" [.text (shown ++ " is not a valid Severity")]
  | .error failure => .failed failure

/-- The severity that a value names. -/
def severityOf (v : Value) : Outcome Severity :=
  match v with
  | .text word =>
    match Severity.ofWord? word with
    | some s => .ok s
    | none => .error (noSeverity v)
  | _ => .error (noSeverity v)

/-- A library error from its parts, the severity among them given by its word. -/
def ofParts (kind : ErrorKind) (parts : Pairs) : Outcome ReportError := do
  match parts.get? (.text "severity") with
  | none => construct kind [] parts
  | some v =>
    let severity ← severityOf v
    let e ← construct kind [] parts
    pure { e with severity := .severity severity }

/-- The other names of the general system error. -/
def systemAliases : List String := ["IOError", "EnvironmentError"]

/-- The class that a name stands for. -/
def resolveAlias (className : String) : String :=
  if systemAliases.contains className then "OSError" else className

/-- The class that a fault of these arguments belongs to: a general system error with a number
and a wording belongs to the class that the number selects. -/
def classOf (className : String) (args : List Value) : String :=
  match className, args with
  | "OSError", number :: _ :: rest =>
    if rest.length ≤ 3 then (number.whole?.bind classOfNumber?).getD className else className
  | _, _ => className

/-- The named arguments that faults of a class take, and the class that speaks for them. -/
def takenNames? : String → Option (String × List String)
  | "ImportError" | "ModuleNotFoundError" => some ("ImportError", ["name", "path"])
  | "NameError" | "UnboundLocalError" => some ("NameError", ["name"])
  | "AttributeError" => some ("AttributeError", ["name", "obj"])
  | _ => none

/-- Checks the named arguments of a fault.  Those that are taken leave its text as it is. -/
def checkNames (className : String) (named : Named) : Except Failure Unit :=
  match takenNames? className with
  | some (owner, names) =>
    if names.length < named.length then
      .error (.argument (.tooManyNames owner names.length named.length))
    else match named.find? fun p => !(names.map Text.points).contains p.1 with
      | some (name, _) => .error (.argument (.unknownName owner name))
      | none => .ok ()
  | none => if named.isEmpty then .ok () else .error (.noNamedArguments className)

/-- Checks the third argument of a blocked operation: a number must tell how much was written. -/
def checkBlocked : List Value → Except Failure Unit
  | _ :: _ :: .float x :: rest =>
    if rest.length ≤ 2 then .error (.argument (.notWhole (Value.float x).kindName)) else .ok ()
  | _ :: _ :: .int n :: rest =>
    if rest.length ≤ 2 && !isWord n then .error (.argument .notIndex) else .ok ()
  | _ => .ok ()

def checkArguments (className : String) (args : List Value) : Except Failure Unit :=
  if SourcePlace.classes.contains className then
    (SourcePlace.ofArguments args).map fun _ => ()
  else match CodecArgument.shape? className with
    | some shape => CodecArgument.checkShape shape args
    | none => if className = "BlockingIOError" then checkBlocked args else .ok ()

/-- The classes of groups of faults. -/
def groupClasses : List String := ["BaseExceptionGroup", "ExceptionGroup"]

/-- Why a group cannot be built: no value is a fault, so there is nothing to group. -/
def groupMistake : List Value → ArgumentMistake
  | [.text _, members] =>
    match members with
    | .list [] | .tuple [] | .text "" | .bytes [] => .groupEmpty
    | .list _ | .tuple _ | .text _ | .bytes _ => .groupMember
    | _ => .groupKind
  | [v, _] => .groupText (CodecArgument.kindWord v)
  | args => .groupCount args.length

/-- A fault of any class. -/
def build (className : String) (args : List Value) (given : Pairs) : Outcome Fault := do
  match ErrorKind.ofClassName? className, named? given with
  | some kind, _ => (construct kind args given).map fun e => .known e none
  | none, none => fail .keywordKind
  | none, some named =>
    let className := resolveAlias className
    if groupClasses.contains className then
      fail (.argument (groupMistake args))
    Outcome.ofExcept (checkNames className named)
    let className := classOf className args
    Outcome.ofExcept (checkArguments className args)
    pure (.raised className args)

end UsageReport.Fault
