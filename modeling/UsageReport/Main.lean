/-
The command line.  It reads the few files that a run may touch, runs the program on them, and
writes back what changed.
-/
import Std.Time
import UsageReport.CommandLine.Program

namespace UsageReport.CommandLine

/-- A content of bytes, as text if they spell one. -/
def contentOf (bytes : ByteArray) : Content :=
  match String.fromUTF8? bytes with
  | some s => .text s
  | none => .bytes bytes.toList

/-- Adds a file to a tree, if it is there and can be read. -/
def readInto (files : FileTree) (path : String) : IO FileTree := do
  try
    let bytes ← IO.FS.readBinFile path
    pure (files.writeFile path (contentOf bytes)).1
  catch _ => pure files

/-- A name inside a directory. -/
def inside (directory name : String) : String :=
  if directory.endsWith "/" then directory ++ name else directory ++ "/" ++ name

/-- The files that a run under a configuration may change. -/
def touchedFiles (config : ConfigFile) : List String :=
  let log := inside config.logDirectory.shown LogSetup.fileName
  log :: (List.range' 1 LogSetup.kept).map (fun n => log ++ "." ++ toString n) ++
    [config.errorsPath.shown]

/-- Writes a file of a tree to disk, if it changed. -/
def writeBack (before after : FileTree) (path : String) : IO Unit :=
  match after.readFile path with
  | .error _ => pure ()
  | .ok content => do
    let same := match before.readFile path with
      | .ok old => decide (old = content)
      | .error _ => false
    unless same do
      IO.FS.createDirAll (PathName.homeOf path)
      IO.FS.writeBinFile path (ByteArray.mk content.toBytes.toArray)

/-- The present surroundings of the program. -/
def surroundings : IO Surroundings := do
  let here ← IO.currentDir
  let stamp := Std.Time.DateTime.ofTimestamp (← Std.Time.Timestamp.now) .UTC
  let now ← try Std.Time.DateTime.now catch _ => pure stamp
  let seed ← IO.rand 0 (Decimal.pow2 128 - 1)
  pure
    { current := here.toString
      logTime := now.format "uuuu-MM-dd HH:mm:ss,SSS"
      clock := ⟨stamp.format "uuuu-MM-dd" ++ "T" ++ stamp.format "HH:mm:ss" ++ "Z", 0.0⟩
      traces := ⟨none, seed⟩ }

/-- The configuration that a command line names, or the usual one if it cannot be read. -/
def configuration (files : FileTree) (arguments : List String) : ConfigFile :=
  match parse arguments with
  | .request r => match r.config.map (ConfigFile.load .lenient files) with
    | some (.ok config) => config
    | _ => {}
  | _ => {}

/-- The path of the configuration that a command line names. -/
def configPath? (arguments : List String) : Option String :=
  match parse arguments with
  | .request r => r.config
  | _ => none

/-- The code with which a program ends, and what it shows of a fault that ended it. -/
def exitCode : Outcome Nat → Nat × String
  | .ok n => (n, "")
  | .error (.failed (.exit n)) => (n, "")
  | .error f => (1, f.className ++ ": " ++ String.ofList (Text.legible f.told) ++ "\n")

end UsageReport.CommandLine

open UsageReport UsageReport.CommandLine in
def main (arguments : List String) : IO UInt32 := do
  let before ← (configPath? arguments).toList.foldlM readInto .empty
  let touched := touchedFiles (configuration before arguments)
  let before ← touched.foldlM readInto before
  let ended := run (← surroundings) before arguments
  for path in touched do
    writeBack before ended.files path
  let (code, complaint) := exitCode ended.code
  (← IO.getStdout).putStr ended.output
  (← IO.getStderr).putStr (ended.shown ++ complaint)
  pure code.toUInt32
