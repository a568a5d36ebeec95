/-
The records that leave the library: a finished report, the object that carries it to the
request layer, and notifications of the current state.  They cannot be changed once made.
-/
import UsageReport.Settings.Field
import UsageReport.Text.Blank

namespace UsageReport

variable (coercions : Field.Coercions)

/-- A finished report. -/
structure Report where
  debug : List Text.CodePoint
  deriving DecidableEq, Repr, Inhabited

/-- The object that carries a report. -/
structure Statistics where
  statistics : List Text.CodePoint
  deriving DecidableEq, Repr

/-- A notification of the current state. -/
structure Update where
  updateType : String
  timestamp : Float
  payload : Fields

namespace Report

/-- Reads a report from a dictionary. -/
def ofPairs (given : Pairs) : Field.Validated Report :=
  Field.record ["debug"] given ((Field.required given "debug" coercions.text).map fun s => ⟨s⟩)

def toFields (r : Report) : Fields := [("debug", .ofPoints r.debug)]

/-- The object that carries the report. -/
def toStatistics (r : Report) : Statistics := ⟨r.debug⟩

end Report

namespace Statistics

/-- Reads a carrying object from a dictionary. -/
def ofPairs (given : Pairs) : Field.Validated Statistics :=
  Field.record ["statistics"] given
    ((Field.required given "statistics" coercions.text).map fun s => ⟨s⟩)

def toFields (s : Statistics) : Fields := [("statistics", .ofPoints s.statistics)]

/-- The object as the request layer sees it. -/
def toObject (s : Statistics) : Value :=
  .ofFields [("@type", .text "memoryStatistics"), ("statistics", .ofPoints s.statistics)]

end Statistics

namespace Update

def fieldNames : List String := ["update_type", "timestamp", "payload"]

/-- The type of an update: a text that is trimmed and not empty. -/
def readType (v : Value) : Field.Reading String := do
  let s ← coercions.legible v
  let s := Text.strip s
  if s = "" then .error (.rule "Value error, update_type required") else .ok s

/-- The payload of an update. -/
def readPayload (given : Pairs) : Field.Validated Fields :=
  match Pairs.get? (.text "payload") given with
  | none => .ok []
  | some v => Field.readDict coercions "payload" v

/-- Reads an update from a dictionary; without a time it happens now. -/
def ofPairs (now : Float) (given : Pairs) : Field.Validated Update :=
  let type := Field.required given "update_type" (readType coercions)
  let timestamp := Field.optional given "timestamp" now coercions.float
  Field.record fieldNames given
    ((Field.both type (Field.both timestamp (readPayload coercions given))).map
      fun (type, timestamp, payload) => ⟨type, timestamp, payload⟩)

def toFields (u : Update) : Fields :=
  [("update_type", .text u.updateType), ("timestamp", .float u.timestamp),
    ("payload", .ofFields u.payload)]

/-- Updates are equal when all fields are. -/
def same (a b : Update) : Bool := Value.ofFields a.toFields == Value.ofFields b.toFields

end Update

/-- The refusal to change a field of a record. -/
def frozen (field : String) : Fault := .invalid [⟨[.text field], .frozenInstance⟩]

/-- The rules for records, as they tell them. -/
def recordRules : Fields := [("extra", .text "forbid"), ("frozen", .bool true)]

/-- What a record tells under a name: a field, or something about its fields. -/
def attribute? (fields : Fields) (given : Pairs) (name : String) : Option Value :=
  match name with
  | "model_config" => some (.ofFields recordRules)
  | "model_computed_fields" => some (.dict [])
  | "model_fields_set" => some (.set (given.map (·.1)))
  | _ => fields.lookup name

/-- Names that a record keeps whatever is assigned to them, with the reasons. -/
def keptNames : List (String × String) :=
  [("__dict__", "__dict__ must be set to a dictionary, not a 'str'"),
    ("__class__", "__class__ must be set to a class, not 'str' object")]

/-- Assigns a text to a name of a record, and tells what stands there afterwards.  Names that
begin with an underscore are kept beside the fields and can be set, all others cannot. -/
def assign (fields : Fields) (given : Pairs) (name : String) (v : Value) :
    Outcome Unit × Value :=
  match keptNames.lookup name with
  | some reason =>
    (.error (.raised "TypeError" [.text reason]),
      if name = "__dict__" then .ofFields fields else .null)
  | none =>
    if name.toList.head? = some '_' ∧ name ≠ "__root__" then (.ok (), v)
    else (.error (frozen name), (attribute? fields given name).getD .null)

end UsageReport
