/-
What is wrong with the arguments that an exception is built from.
-/
import UsageReport.Text.CodePoint

namespace UsageReport

open Text (CodePoint)

/-- A mistake in the arguments of an exception. -/
inductive ArgumentMistake
  /-- A name that the exception does not take. -/
  | unknownName (owner : String) (name : List CodePoint)
  /-- More named arguments than there are names. -/
  | tooManyNames (owner : String) (most given : Nat)
  /-- A wrong number of arguments, or of members of one. -/
  | count (bound : String) (needed given : Nat)
  /-- The argument at a place, counted from one, is no text. -/
  | noText (place : Nat) (kind : String)
  | notWhole (kind : String)
  | notBytes (kind : String)
  /-- A number that tells how much was done does not fit into a word. -/
  | notIndex
  /-- The line of the end is given, but not its column. -/
  | endColumn
  | groupCount (given : Nat)
  | groupText (kind : String)
  | groupKind
  | groupEmpty
  /-- A member of a group is no exception. -/
  | groupMember
  deriving DecidableEq, Repr

def ArgumentMistake.className : ArgumentMistake → String
  | .notIndex | .groupEmpty | .groupMember => "ValueError"
  | _ => "TypeError"

/-- A number of arguments of a kind. -/
def countText (n : Nat) (what : String) : String :=
  toString n ++ " " ++ what ++ (if n = 1 then "" else "s")

/-- The wording of a mistake, apart from a name that the caller chose. -/
def ArgumentMistake.wording : ArgumentMistake → String
  | .unknownName owner _ => "is an invalid keyword argument for " ++ owner ++ "()"
  | .tooManyNames owner most given =>
    owner ++ "() takes at most " ++ countText most "keyword argument" ++ " (" ++
      toString given ++ " given)"
  | .count bound needed given =>
    "function takes " ++ bound ++ " " ++ countText needed "argument" ++ " (" ++
      toString given ++ " given)"
  | .noText place kind => "argument " ++ toString place ++ " must be str, not " ++ kind
  | .notWhole kind => "'" ++ kind ++ "' object cannot be interpreted as an integer"
  | .notBytes kind => "a bytes-like object is required, not '" ++ kind ++ "'"
  | .notIndex => "cannot fit 'int' into an index-sized integer"
  | .endColumn => "end_offset must be provided when end_lineno is provided"
  | .groupCount given =>
    "BaseExceptionGroup.__new__() takes exactly 2 arguments (" ++ toString given ++ " given)"
  | .groupText kind => "BaseExceptionGroup.__new__() argument 1 must be str, not " ++ kind
  | .groupKind => "second argument (exceptions) must be a sequence"
  | .groupEmpty => "second argument (exceptions) must be a non-empty sequence"
  | .groupMember => "Item 0 of second argument (exceptions) is not an exception"

def ArgumentMistake.message (mistake : ArgumentMistake) : List CodePoint :=
  match mistake with
  | .unknownName _ name => Text.points "'" ++ name ++ Text.points ("' " ++ mistake.wording)
  | _ => Text.points mistake.wording

end UsageReport
