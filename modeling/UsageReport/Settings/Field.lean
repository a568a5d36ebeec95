/-
Fields of records.  What a value comes to as a field is up to coercions, which leave values of the
field's own kind as they are.  All fields of a record are read before any problem counts, and names
that are no field are problems as well.
-/
import UsageReport.Fault
import UsageReport.PathName
import UsageReport.Value.Numeric

namespace UsageReport.Field

/-- A field's value or its problem. -/
abbrev Reading (α : Type) := Except ProblemKind α

/-- How values become fields: a reading for each kind of field, which leaves the values of that kind
as they are. -/
structure Coercions where
  text : Value → Reading (List Text.CodePoint)
  bool : Value → Reading Bool
  whole : Value → Reading Int
  float : Value → Reading Float
  text_own (points : List Text.CodePoint) : text (.ofPoints points) = .ok points
  bool_own (b : Bool) : bool (.bool b) = .ok b
  whole_own (n : Int) : whole (.int n) = .ok n
  float_own (x : Float) : float (.float x) = .ok x

variable (coercions : Coercions)

/-- A path field, which keeps lone halves. -/
def Coercions.path (v : Value) : Reading PathName := (coercions.text v).map .ofPoints

/-- A text field.  A lone half of a surrogate pair counts as a replacement character. -/
def Coercions.legible (v : Value) : Reading String :=
  (coercions.text v).map fun points => String.ofList (Text.legible points)

/-- A whole number field between bounds. -/
def Coercions.within (least : Int) (most : Option Int) (v : Value) : Reading Int := do
  let n ← coercions.whole v
  if n < least then .error .atLeast
  else match most with
    | some m => if m < n then .error .atMost else .ok n
    | none => .ok n

/-- Problems or a value: the fields of a record are all read before any problem counts. -/
abbrev Validated (α : Type) := Except (List Problem) α

/-- A value as a part of a location: texts and numbers of 64 bits stay, all else is shown. -/
def locationPart : Value → Value
  | .text s => .text s
  | .int n => if isWord n then .int n else .text (Value.describe (.int n))
  | .bool b => .int (boolInt b)
  | v => .text v.describe

/-- Sets a named value: an old name keeps its place. -/
def putField (name : String) (v : Value) : Fields → Fields
  | [] => [(name, v)]
  | (n, old) :: rest => if n = name then (n, v) :: rest else (n, old) :: putField name v rest

/-- A dictionary field whose keys are texts.  Keys that spell one text share an entry, which
holds the last value; every key that is none is a problem. -/
def readDict (field : String) (v : Value) : Validated Fields :=
  match v with
  | .dict pairs =>
    let problems := pairs.filterMap fun p => match coercions.legible p.1 with
      | .ok _ => none
      | .error kind => some ⟨[.text field, locationPart p.1, .text "[key]"], kind⟩
    if problems.isEmpty then
      .ok (pairs.foldl (fun fields p => match coercions.legible p.1 with
        | .ok name => putField name p.2 fields
        | .error _ => fields) [])
    else .error problems
  | _ => .error [⟨[.text field], .dictType⟩]

def required {α : Type} (given : Pairs) (name : String) (read : Value → Reading α) :
    Validated α :=
  match Pairs.get? (.text name) given with
  | none => .error [⟨[.text name], .missing⟩]
  | some v => match read v with
    | .ok x => .ok x
    | .error kind => .error [⟨[.text name], kind⟩]

/-- Reads a named field of a record that has a default. -/
def optional {α : Type} (given : Pairs) (name : String) (fallback : α)
    (read : Value → Reading α) : Validated α :=
  match Pairs.get? (.text name) given with
  | none => .ok fallback
  | some v => match read v with
    | .ok x => .ok x
    | .error kind => .error [⟨[.text name], kind⟩]

def problemsOf {α : Type} : Validated α → List Problem
  | .ok _ => []
  | .error problems => problems

/-- Two readings, with the problems of both. -/
def both {α β : Type} (first : Validated α) (second : Validated β) : Validated (α × β) :=
  match first, second with
  | .ok a, .ok b => .ok (a, b)
  | first, second => .error (problemsOf first ++ problemsOf second)

/-- The problems of the keys that name no field, in the order given. -/
def unknownFields (names : List String) (given : Pairs) : List Problem :=
  given.filterMap fun p => match p.1 with
    | .text s => if names.contains s then none else some ⟨[.text s], .extraForbidden⟩
    | k => some ⟨[locationPart k], .invalidKey⟩

/-- Whether a key is a text with lone halves. -/
def isBrokenKey (p : Value × Value) : Bool :=
  match p.1 with
  | .broken _ => true
  | _ => false

/-- A record from the readings of its fields and the keys that name none.  A dictionary with a
key that has lone halves is refused as a whole. -/
def record {α : Type} (names : List String) (given : Pairs) (fields : Validated α) :
    Validated α :=
  if given.any isBrokenKey then .error [⟨[], .stringUnicode⟩]
  else match fields, unknownFields names given with
    | .ok a, [] => .ok a
    | fields, unknown => .error (problemsOf fields ++ unknown)

/-- A problem of an inner record, placed in the outer one. -/
def placeWithin (field : String) (p : Problem) : Problem :=
  { p with location := .text field :: p.location }

end UsageReport.Field
