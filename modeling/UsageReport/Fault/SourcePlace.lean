/-
Faults about source text.  Such a fault has a message and, where a second argument gives one,
the place that it is about: a file, a line, a column, and the text of the line.  Its text names
file and line; its traceback shows the line and marks the columns.
-/
import UsageReport.PathName
import UsageReport.Text.Blank
import UsageReport.Value.Key
import UsageReport.Value.Numeric
import UsageReport.Value.Written

namespace UsageReport

open Text (CodePoint)

/-- The place of a fault in source text; parts that are not given are null. -/
structure SourcePlace where
  file : Value := .null
  line : Value := .null
  column : Value := .null
  text : Value := .null
  endLine : Value := .null
  endColumn : Value := .null

namespace SourcePlace

def classes : List String := ["SyntaxError", "IndentationError", "TabError"]

/-- The place that the members of an argument give. -/
def ofMembers : List Value → Except ArgumentMistake SourcePlace
  | [file, line, column, text] => .ok { file, line, column, text }
  | [_, _, _, _, _] => .error .endColumn
  | [file, line, column, text, endLine, endColumn] =>
    .ok { file, line, column, text, endLine, endColumn }
  | xs =>
    if xs.length < 4 then .error (.count "at least" 4 xs.length)
    else .error (.count "at most" 6 xs.length)

/-- The place that the arguments of a fault give.  Only two arguments give one. -/
def ofArguments : List Value → Except Failure SourcePlace
  | [_, info] => do
    let members ← info.members
    match ofMembers members with
    | .ok place => .ok place
    | .error mistake => .error (.argument mistake)
  | _ => .ok {}

/-- The place of a fault that was built. -/
def ofBuilt (args : List Value) : SourcePlace := (ofArguments args).toOption.getD {}

/-- The name of the file, without its directory. -/
def fileName? (place : SourcePlace) : Option (List CodePoint) :=
  place.file.points?.map fun path => (PathName.cut (· == .char '/') path).2

/-- The number of the line; one that does not fit into a word is told as minus one. -/
def lineNumber? (place : SourcePlace) : Option Int :=
  match place.line with
  | .int n => some (if isWord n then n else -1)
  | _ => none

/-- What the text of a fault tells of its place. -/
def suffix (place : SourcePlace) : List CodePoint :=
  match place.fileName?, place.lineNumber? with
  | none, none => []
  | some file, none => Text.points " (" ++ file ++ Text.points ")"
  | none, some line => Text.points (" (line " ++ toString line ++ ")")
  | some file, some line =>
    Text.points " (" ++ file ++ Text.points (", line " ++ toString line ++ ")")

def message (args : List Value) : Except Failure (List CodePoint) :=
  (args.head?.getD .null).written.map (· ++ (ofBuilt args).suffix)

/-- The failure to add one to a value that is no number. -/
def cannotAdd (v : Value) : Failure :=
  match v with
  | .text _ | .broken _ | .list _ | .tuple _ => .cannotConcatenate v.kindName
  | .bytes _ => .cannotConcatenateBytes
  | v => .unsupported "+" v.kindName "int"

/-- A column as a number. -/
inductive Column
  | whole (n : Int)
  | fraction (x : Float)

/-- The column that a value gives, counted from zero after `spaces` that are not shown. -/
def Column.of? (spaces : Int) : Value → Option Column
  | .float x => some (.fraction (x - 1.0 - (Decimal.ofInt? spaces).getD 0.0))
  | v => v.whole?.map fun n => .whole (n - 1 - spaces)

/-- A value reduced by one as a column, if it is a number. -/
def Column.of (spaces : Int) (v : Value) : Except Failure Column :=
  match Column.of? spaces v with
  | some column => .ok column
  | none => .error (.unsupported "-" v.kindName "int")

def Column.next : Column → Column
  | .whole n => .whole (n + 1)
  | .fraction x => .fraction (x + 1.0)

/-- The columns to be marked: the first one, and the one after the last. -/
def columns (place : SourcePlace) (spaces : Int) : Except Failure (Column × Column) := do
  match place.endColumn.unhashable? with
  | some kind => throw (.unhashable kind)
  | none => pure ()
  let last := if place.endColumn.truth then place.endColumn else
    match place.endColumn with
    | .null | .bool _ | .int _ | .float _ => place.column
    | v => v
  if place.column == last || last == .int (-1) then
    match Column.of? spaces place.column with
    | some first => pure (first, first.next)
    | none => throw (cannotAdd place.column)
  else
    let first ← Column.of spaces place.column
    let stop ← Column.of spaces last
    pure (first, stop)

/-- The line that marks the columns of a text, if there are any to be marked. -/
def marks (place : SourcePlace) (spaces : Nat) (text : List CodePoint) :
    Except Failure (List CodePoint) := do
  match place.column with
  | .null => pure []
  | _ =>
    match ← place.columns spaces with
    | (.whole first, stop) =>
      if first < 0 then pure []
      else
        let lead := (text.take first.toNat).map fun p =>
          if Text.isBlankPoint p then p else .char ' '
        match stop with
        | .fraction _ => throw .cannotRepeat
        | .whole stop =>
          pure (Text.points "    " ++ lead ++
            List.replicate (stop - first).toNat (.char '^') ++ Text.points "\n")
    | (.fraction first, _) => if 0.0 ≤ first then throw .notSliceable else pure []

/-- What stands before the text of a line and is not shown. -/
def isIndent (p : CodePoint) : Bool := p == .char ' ' || p == .char '\n' || p == .char '\x0c'

/-- The lines that show the text of a place, if it has one. -/
def excerpt (place : SourcePlace) : Except Failure (List CodePoint) :=
  match place.text, place.text.points? with
  | .null, _ => .ok []
  | _, some points => do
    let whole := (points.reverse.dropWhile (· == .char '\n')).reverse
    let text := whole.dropWhile isIndent
    let marked ← place.marks (whole.length - text.length) text
    pure (Text.points "    " ++ text ++ Text.points "\n" ++ marked)
  | .bytes _, _ => .error (.argument (.notBytes "str"))
  | v, _ => .error (.noSuchField v.kindName "rstrip")

/-- The line that tells file and line, and what stands behind the text if the line is not told. -/
def heading (place : SourcePlace) : Except Failure (List CodePoint × List CodePoint) :=
  match place.line, place.file with
  | .null, .null => pure ([], [])
  | .null, file => do
    let name ← file.written
    pure ([], Text.points " (" ++ name ++ Text.points ")")
  | line, file => do
    let number ← line.written
    let name ← if file.truth then file.written else pure (Text.points "<string>")
    pure (Text.points "  File \"" ++ name ++ Text.points "\", line " ++ number ++ Text.points "\n",
      [])

/-- The traceback of a fault about source text that was never raised.  The number of its last line
is written first, although it is not told. -/
def traceback (className : String) (args : List Value) : Except Failure (List CodePoint) := do
  let place := ofBuilt args
  discard place.endLine.written
  let (head, suffix) ← place.heading
  let excerpt ← place.excerpt
  let text := args.head?.getD .null
  let told ← if text.truth then text.written else pure (Text.points "<no detail available>")
  pure (head ++ excerpt ++ Text.points (className ++ ": ") ++ told ++ suffix ++ Text.points "\n")

end SourcePlace

end UsageReport
