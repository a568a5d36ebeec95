/-
Where log lines go.  Once set up, they are appended to a file, which gives way to a fresh one
before it grows too large, and are shown on standard error; the file of the first setup stays.
Before that, lines from warnings on are shown on standard error alone.
-/
import UsageReport.FileTree
import UsageReport.Logging.Event

namespace UsageReport

/-- The setup of the log. -/
structure LogSetup where
  /-- The least level that is logged; zero leaves it to the level of warnings. -/
  level : Int := 0
  /-- Whether lines also go to the handlers of the program as a whole. -/
  propagates : Bool := true
  /-- The place of the file that lines are appended to. -/
  file : Option TreePath := none
  /-- Whether lines are shown on standard error. -/
  shows : Bool := false

/-- What logging writes to. -/
structure LogOutput where
  files : FileTree
  /-- All that was shown on standard error. -/
  shown : String

namespace LogSetup

def fileName : String := "memstats.log"

/-- A file gives way before a line that would make it reach this size. -/
def sizeLimit : Nat := 1000000

/-- How many files that gave way are kept. -/
def kept : Nat := 5

/-- The classes of the handlers that are set up, in order. -/
def handlers (s : LogSetup) : List String :=
  (if s.file.isSome then ["RotatingFileHandler"] else []) ++
    if s.shows then ["StreamHandler"] else []

/-- The place that the parts of a path name, taken literally: two dots take the last name
away. -/
def placeOf (parts : List String) : TreePath :=
  parts.foldl (fun place part =>
    if part = "" ∨ part = "." then place
    else if part = ".." then place.dropLast
    else place ++ [part]) []

/-- Opens the log file in a directory, which makes it if it is not there.  A refusal tells the
path from `current` on, the absolute path of the root. -/
def openFile (t : FileTree) (current directory : String) : Outcome (FileTree × TreePath) :=
  let place := placeOf (FileTree.parts directory ++ [fileName])
  let path := FileTree.pathOf place
  match t.appendFile path "" with
  | .ok t => .ok (t, place)
  | .error (.failed (.file refusal _ _)) => FileTree.refuse refusal (current ++ "/" ++ path)
  | .error f => .error f

/-- Sets the log up.  The files and the setup come back also if something is refused. -/
def run (s : LogSetup) (t : FileTree) (current : String) (directory : PathName) (level : Int) :
    LogSetup × FileTree × Outcome Unit :=
  match t.ensureName directory with
  | (t, .error f) => (s, t, .error f)
  | (t, .ok ()) =>
    let s := { s with level, propagates := false }
    match s.file with
    | some _ => ({ s with shows := true }, t, .ok ())
    | none =>
      match openFile t current directory.shown with
      | .error f => (s, t, .error f)
      | .ok (t, place) => ({ s with file := some place, shows := true }, t, .ok ())

/-- The least level that is logged. -/
def threshold (s : LogSetup) : Int := if s.level = 0 then warningLevel else s.level

/-- A line of the log file. -/
def line (time : String) (level : Int) (message : String) : String :=
  time ++ " | " ++ levelName level ++ " | " ++ message ++ "\n"

/-- The place of a file that gave way, counted from the youngest. -/
def backup (place : TreePath) (n : Nat) : TreePath :=
  place.dropLast ++ [place.getLastD "" ++ "." ++ toString n]

/-- Moves what stands at a place, if anything does. -/
def shift (t : FileTree) (source target : TreePath) : FileTree :=
  match t.node? source with
  | none => t
  | some n => (t.erase source).put target n

/-- Makes the backups one older, the file the youngest of them, and begins a new file. -/
def rotate (t : FileTree) (place : TreePath) : FileTree :=
  let aged := ((List.range' 1 (kept - 1)).reverse).foldl
    (fun t n => shift t (backup place n) (backup place (n + 1))) t
  (shift aged place (backup place 1)).put place (.file (.text ""))

/-- The number of bytes of the file at a place. -/
def fileSize (t : FileTree) (place : TreePath) : Nat :=
  match t.node? place with
  | some (.file (.text s)) => s.utf8ByteSize
  | some (.file (.bytes bs)) => bs.length
  | _ => 0

/-- Appends a line to the log file.  The file counts in bytes and the line in characters. -/
def appendLine (t : FileTree) (place : TreePath) (text : String) : FileTree :=
  let t := if sizeLimit ≤ fileSize t place + text.length then rotate t place else t
  match t.appendFile (FileTree.pathOf place) text with
  | .ok t => t
  | .error _ => t

/-- Logs a message at a level.  Levels that are not positive are never logged. -/
def emit (s : LogSetup) (time : String) (o : LogOutput) (level : Int) (message : String) :
    LogOutput :=
  if level ≤ 0 ∨ level < s.threshold then o
  else
    let files := match s.file with
      | some place => appendLine o.files place (line time level message)
      | none => o.files
    let isShown := s.shows || (s.file.isNone && decide (warningLevel ≤ level))
    { files, shown := if isShown then o.shown ++ message ++ "\n" else o.shown }

/-- Logs an event, if its message can be made and holds no lone halves. -/
def emitEvent (s : LogSetup) (time : String) (o : LogOutput) (e : LogEvent) : LogOutput :=
  match e.message.toOption.bind Text.characters? with
  | some message => s.emit time o e.level (String.ofList message)
  | none => o

end LogSetup

end UsageReport
