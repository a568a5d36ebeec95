/-
Fragments: what goes between the braces of a report entry.  A fragment is a list of members
`"name":value`; providers may write it themselves, so it can be checked.
-/
import UsageReport.Fault
import UsageReport.Json.Writer
import UsageReport.Value.Numeric

namespace UsageReport

open Text (CodePoint)

/-- One member of a fragment: the name kept to ASCII, the value as it is. -/
def fragmentMember (name : List CodePoint) (value : Value) : Except Failure (List Char) :=
  (Json.Style.compact.write 0 value).map fun v => Json.writeEscaped name ++ ':' :: v

def fragmentMembers : Named → Except Failure (List (List Char))
  | [] => .ok []
  | (name, value) :: rest => do
    let part ← fragmentMember name value
    let parts ← fragmentMembers rest
    pure (part :: parts)

/-- Named arguments as one fragment. -/
def fragmentOf (counters : Named) : Except Failure String :=
  (fragmentMembers counters).map fun parts => String.ofList ([','].intercalate parts)

/-- Named counters as one fragment. -/
def fragment (counters : Fields) : Except Failure String :=
  fragmentOf (counters.map fun p => (Text.points p.1, p.2))

/-- A dictionary of counters as one fragment; its keys must be texts. -/
def fragmentOfPairs (counters : Pairs) : Except Failure String :=
  match named? counters with
  | none => .error .keywordKind
  | some named => fragmentOf named

/-- A fragment's text between braces. -/
def inBraces (cs : List CodePoint) : List CodePoint :=
  .char '\x7b' :: cs ++ [.char '\x7d']

/-- Whether a text continues a JSON object: nothing, or why not. -/
def checkFragmentText (cs : List CodePoint) : Except Failure Unit :=
  match Json.read (inBraces cs) with
  | .ok _ => .ok ()
  | .error (.mistake kind _) => .error (.fragmentSyntax kind.wording)
  | .error (.tooLong digits) => .error (.tooLongToRead digits)

/-- Checks the pieces of a fragment. -/
def checkFragment (parts : List Value) : Except Failure Unit := do
  let text ← joinTexts 0 parts
  checkFragmentText text

/-- Checks whatever is given as the pieces of a fragment. -/
def checkPieces (pieces : Value) : Except Failure Unit :=
  match pieces.members with
  | .ok parts => checkFragment parts
  | .error _ => .error .cannotJoin

end UsageReport
