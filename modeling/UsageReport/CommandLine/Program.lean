/-
The program behind the command line.  It loads the configuration, sets up the log, starts the
small client, and prints one report.  What it does to the files, and what it shows, comes back
as values.
-/
import UsageReport.CommandLine.Demonstration
import UsageReport.CommandLine.Options
import UsageReport.Logging.Setup
import UsageReport.Settings.Lenient
import UsageReport.Settings.Storage

namespace UsageReport.CommandLine

/-- What the program learns from its surroundings. -/
structure Surroundings where
  /-- The absolute path of the root of the files. -/
  current : String
  logTime : String
  clock : Clock
  traces : TraceState

/-- What a run of the program leaves behind. -/
structure Ended where
  files : FileTree
  output : String
  shown : String
  /-- The code of the program, or the fault that ended it. -/
  code : Outcome Nat

/-- A run that a fault ended before anything was printed. -/
def Ended.early (files : FileTree) (shown : String) (f : Fault) : Ended :=
  ⟨files, "", shown, .error f⟩

def exitWith (code : Nat) : Fault := .failed (.exit code)

/-- The notation of an indented report. -/
def prettyStyle : Json.Style := { indent := some 2 }

/-- A text as it is printed; one with lone halves cannot be. -/
def printed (points : List Text.CodePoint) : Outcome String :=
  match Text.unpaired? points with
  | some fault => fail (.unpaired fault)
  | none => .ok (String.ofList (Text.legible points))

/-- A report as it is printed. -/
def layOut (pretty : Bool) (report : Report) : Outcome String :=
  if pretty then
    match Json.read report.debug with
    | .ok d => Outcome.ofExcept (prettyStyle.text d.toValue)
    | .error (.mistake kind rest) =>
      .error (.notJson (kind.wording ++ Json.placeText report.debug rest))
    | .error (.tooLong digits) => fail (.tooLongToRead digits)
  else printed report.debug

/-- Requests the report of an equipped client, prints it, and passes the log on. -/
def printReport (s : Surroundings) (r : Request) (setup : LogSetup) (o : LogOutput)
    (config : ConfigFile) (c : Client) : Ended :=
  let w : World :=
    { files := o.files, metrics := Client.metrics config, calls := [], log := []
      traces := s.traces, clock := s.clock }
  let requested := c.request w (.bool r.full)
  let o := requested.world.log.foldl (setup.emitEvent s.logTime)
    { o with files := requested.world.files }
  match requested.report.bind (layOut r.pretty) with
  | .ok text => ⟨o.files, text ++ "\n", o.shown, .ok 0⟩
  | .error f => .early o.files o.shown f

def answer (s : Surroundings) (files : FileTree) (r : Request) : Ended :=
  match r.config.elim (fail .noPath) (ConfigFile.load .lenient files) with
  | .error f => .early files "" f
  | .ok config =>
    match LogSetup.run {} files s.current config.logDirectory infoLevel with
    | (_, files, .error f) => .early files "" f
    | (setup, files, .ok ()) =>
      let log := Client.errorLog config
      match log.prepare files with
      | (files, .error f) => .early files "" f
      | (files, .ok ()) =>
        match equip (.new {} config (.log log)) with
        | .error f => .early files "" f
        | .ok c => printReport s r setup ⟨files, ""⟩ config c

def run (s : Surroundings) (files : FileTree) (arguments : List String) : Ended :=
  match parse arguments with
  | .help => ⟨files, helpText, "", .error (exitWith 0)⟩
  | .wrong e => .early files e.text (exitWith 2)
  | .request r => answer s files r

end UsageReport.CommandLine
