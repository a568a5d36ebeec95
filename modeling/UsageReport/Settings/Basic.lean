/-
Settings: how reports are made, and the configuration file that holds them.  Both are read
from dictionaries field by field; all problems are told at once, those of the fields in the
order of the record and then those of unknown names in the order given.
-/
import UsageReport.Provider.Name
import UsageReport.Settings.Field

namespace UsageReport

/-- The name that marks a lost entry unless another one is set. -/
def usualMarker : Name := ⟨Text.points "error", by decide, by decide⟩

/-- How reports are made. -/
structure Settings where
  /-- Whether a fault costs only the entry of its provider. -/
  isolateFaults : Bool := true
  /-- The name that marks the entry of a provider that failed. -/
  faultMarker : Name := usualMarker
  /-- Whether the pieces of every provider are checked. -/
  validateFragments : Bool := false
  recordMetrics : Bool := true
  sampleLimit : Int := 200
  deriving DecidableEq, Repr

namespace Settings

variable (coercions : Field.Coercions)

def fieldNames : List String :=
  ["isolate_provider_faults", "fault_marker_key", "validate_fragments", "record_metrics",
    "max_samples_per_histogram"]

/-- The marker's name: a text that is trimmed, not empty, and plain. -/
def readMarker (v : Value) : Field.Reading Name := do
  let points ← coercions.text v
  let trimmed := Text.trimBy Text.isBlankPoint points
  if trimmed = [] then .error (.rule "Value error, fault_marker_key required")
  else match Name.ofPoints? trimmed with
    | some name => .ok name
    | none => .error (.rule "Value error, fault_marker_key must not need JSON escaping")

def ofPairs (given : Pairs) : Field.Validated Settings :=
  let isolate := Field.optional given "isolate_provider_faults" true coercions.bool
  let marker := Field.optional given "fault_marker_key" usualMarker (readMarker coercions)
  let validate := Field.optional given "validate_fragments" false coercions.bool
  let record := Field.optional given "record_metrics" true coercions.bool
  let limit :=
    Field.optional given "max_samples_per_histogram" 200 (coercions.within 10 (some 100000))
  Field.record fieldNames given
    ((Field.both isolate (Field.both marker (Field.both validate (Field.both record limit)))).map
      fun (isolate, marker, validate, record, limit) =>
        ⟨isolate, marker, validate, record, limit⟩)

def toFields (s : Settings) : Fields :=
  [("isolate_provider_faults", .bool s.isolateFaults), ("fault_marker_key", s.faultMarker.value),
    ("validate_fragments", .bool s.validateFragments), ("record_metrics", .bool s.recordMetrics),
    ("max_samples_per_histogram", .int s.sampleLimit)]

end Settings

/-- What a configuration file holds. -/
structure ConfigFile where
  version : Int := 1
  logDirectory : PathName := .text "logs"
  errorsPath : PathName := .text "logs/errors.jsonl"
  settings : Settings := {}
  deriving DecidableEq, Repr

namespace ConfigFile

variable (coercions : Field.Coercions)

def fieldNames : List String := ["config_version", "log_dir", "errors_path", "stats"]

/-- Reads the settings inside a configuration. -/
def readSettings (given : Pairs) : Field.Validated Settings :=
  match Pairs.get? (.text "stats") given with
  | none => .ok {}
  | some (.dict pairs) =>
    match Settings.ofPairs coercions pairs with
    | .ok s => .ok s
    | .error problems => .error (problems.map (Field.placeWithin "stats"))
  | some _ => .error [⟨[.text "stats"], .modelType⟩]

def ofPairs (given : Pairs) : Field.Validated ConfigFile :=
  let version := Field.optional given "config_version" 1 (coercions.within 1 none)
  let logs := Field.optional given "log_dir" (.text "logs") coercions.path
  let errors := Field.optional given "errors_path" (.text "logs/errors.jsonl") coercions.path
  Field.record fieldNames given
    ((Field.both version (Field.both logs (Field.both errors (readSettings coercions given)))).map
      fun (version, logs, errors, settings) => ⟨version, logs, errors, settings⟩)

/-- A path as a value. -/
def pathValue : PathName → Value
  | .text path => .text path
  | .escaped points | .broken points _ => .broken points

def toFields (c : ConfigFile) : Fields :=
  [("config_version", .int c.version), ("log_dir", pathValue c.logDirectory),
    ("errors_path", pathValue c.errorsPath), ("stats", .ofFields c.settings.toFields)]

/-- Puts a named value before the first whose name is not smaller. -/
def insertByName (field : String × Value) : Fields → Fields
  | [] => [field]
  | other :: rest =>
    if field.1 ≤ other.1 then field :: other :: rest else other :: insertByName field rest

/-- Named values in the order of their names. -/
def byName (fields : Fields) : Fields := fields.foldr insertByName []

/-- The configuration as a dictionary in the order of names. -/
def sorted (c : ConfigFile) : Value :=
  .ofFields (byName
    [("config_version", .int c.version), ("log_dir", pathValue c.logDirectory),
      ("errors_path", pathValue c.errorsPath), ("stats", .ofFields (byName c.settings.toFields))])

end ConfigFile

end UsageReport
