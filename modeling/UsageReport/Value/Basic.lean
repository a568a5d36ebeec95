/-
The values that subsystems report and that travel in contexts, tags and settings.  A
dictionary is a list of pairs in insertion order; a repeated key keeps its first place and
takes the last value.
-/
import UsageReport.Decimal.Binary64
import UsageReport.Text.CodePoint

namespace UsageReport

inductive Value
  | null
  | bool (b : Bool)
  | int (n : Int)
  | float (x : Float)
  | text (s : String)
  /-- A text that holds half of a surrogate pair alone. -/
  | broken (points : List Text.CodePoint)
  | bytes (bs : List UInt8)
  | list (xs : List Value)
  | tuple (xs : List Value)
  | set (xs : List Value)
  | dict (pairs : List (Value × Value))
  deriving Inhabited

/-- The word that messages use for the kind of a value. -/
def Value.kindName : Value → String
  | .null => "NoneType"
  | .bool _ => "bool"
  | .int _ => "int"
  | .float _ => "float"
  | .text _ => "str"
  | .broken _ => "str"
  | .bytes _ => "bytes"
  | .list _ => "list"
  | .tuple _ => "tuple"
  | .set _ => "set"
  | .dict _ => "dict"

/-- Empty texts and containers, zeros and the null value count as false. -/
def Value.truth : Value → Bool
  | .null => false
  | .bool b => b
  | .int n => n != 0
  | .float x => x != 0.0
  | .text s => s != ""
  | .broken points => !points.isEmpty
  | .bytes bs => !bs.isEmpty
  | .list xs | .tuple xs | .set xs => !xs.isEmpty
  | .dict pairs => !pairs.isEmpty

/-- The value of a text. -/
def Value.ofPoints (points : List Text.CodePoint) : Value :=
  match Text.characters? points with
  | some cs => .text (String.ofList cs)
  | none => .broken points

/-- The code points of a value that is a text, whole or not. -/
def Value.points? : Value → Option (List Text.CodePoint)
  | .text s => some (Text.points s)
  | .broken points => some points
  | _ => none

/-- The value of a text holds its code points. -/
@[simp] theorem Value.points?_ofPoints (points : List Text.CodePoint) :
    (Value.ofPoints points).points? = some points := by
  unfold Value.ofPoints
  split
  · next cs hcs =>
    simp [Value.points?, Text.points, Text.eq_map_of_characters? hcs]
  · rfl

theorem Value.ofPoints_inj {ps qs : List Text.CodePoint} :
    Value.ofPoints ps = Value.ofPoints qs ↔ ps = qs := by
  refine ⟨fun h => ?_, congrArg _⟩
  rw [← Option.some_inj, ← Value.points?_ofPoints ps, h, Value.points?_ofPoints]

theorem Value.ofPoints_points (s : String) : Value.ofPoints (Text.points s) = .text s := by
  simp [Value.ofPoints, Text.points, Text.characters?_map_char]

/-- Whether a floating-point number is exactly the whole number `n`. -/
def floatIsInt (x : Float) (n : Int) : Bool :=
  match Decimal.Parts.ofFloat x with
  | .finite negative m q => Decimal.isWhole m q && Decimal.truncate negative m q == n
  | _ => false

/-- The whole number that a truth value counts as. -/
def boolInt (b : Bool) : Int := if b then 1 else 0

/-- Numbers of different kinds are compared by their exact size. -/
def Value.sameNumber : Value → Value → Bool
  | .int a, .int b => a == b
  | .int a, .float y => floatIsInt y a
  | .float x, .int b => floatIsInt x b
  | .float x, .float y => x == y
  | .bool a, .bool b => a == b
  | .bool a, .int b => boolInt a == b
  | .int a, .bool b => a == boolInt b
  | .bool a, .float y => floatIsInt y (boolInt a)
  | .float x, .bool b => floatIsInt x (boolInt b)
  | _, _ => false

mutual

/-- Equality of values: numbers by size, sequences member by member, dictionaries by their
keys in any order. -/
def Value.same : Value → Value → Bool
  | .null, .null => true
  | .text a, .text b => a == b
  | .broken a, .broken b => a == b
  | .bytes a, .bytes b => a == b
  | .list xs, .list ys => Value.sameAll xs ys
  | .tuple xs, .tuple ys => Value.sameAll xs ys
  | .set xs, .set ys => xs.length == ys.length && Value.allWithin xs ys
  | .dict ps, .dict qs => ps.length == qs.length && Value.pairsWithin ps qs
  | a, b => Value.sameNumber a b

def Value.sameAll : List Value → List Value → Bool
  | [], [] => true
  | x :: xs, y :: ys => Value.same x y && Value.sameAll xs ys
  | _, _ => false

/-- Whether every member of the first list has an equal one in the second. -/
def Value.allWithin : List Value → List Value → Bool
  | [], _ => true
  | x :: xs, ys => ys.any (fun y => Value.same x y) && Value.allWithin xs ys

/-- Whether every pair of the first list has an equal one in the second. -/
def Value.pairsWithin : List (Value × Value) → List (Value × Value) → Bool
  | [], _ => true
  | (k, v) :: ps, qs =>
    qs.any (fun q => Value.same k q.1 && Value.same v q.2) && Value.pairsWithin ps qs

end

instance : BEq Value := ⟨Value.same⟩

@[simp] theorem Value.text_beq_text (a b : String) : (Value.text a == Value.text b) = (a == b) := by
  simp only [BEq.beq, Value.same]

/-- Only a text is equal to a text. -/
theorem Value.beq_ofPoints_iff {v : Value} {points : List Text.CodePoint} :
    (v == Value.ofPoints points) = true ↔ v = Value.ofPoints points := by
  unfold Value.ofPoints
  split
  · cases v <;> simp [BEq.beq, Value.same, Value.sameNumber]
  · cases v with
    | broken other =>
        have hpoints : (other == points) = true ↔ other = points := beq_iff_eq
        simpa only [BEq.beq, Value.same, Value.broken.injEq] using hpoints
    | _ => simp [BEq.beq, Value.same, Value.sameNumber]

abbrev Pairs := List (Value × Value)

namespace Pairs

/-- Sets a key: an old key keeps its place and its spelling, a new one goes last. -/
def put (key value : Value) : Pairs → Pairs
  | [] => [(key, value)]
  | (k, v) :: rest => if k == key then (k, value) :: rest else (k, v) :: put key value rest

/-- The dictionary that a list of settings leaves behind. -/
def ofList (pairs : List (Value × Value)) : Pairs :=
  pairs.foldl (fun d p => d.put p.1 p.2) []

def get? (key : Value) (pairs : Pairs) : Option Value :=
  (pairs.find? (fun p => p.1 == key)).map (·.2)

/-- Sets a key that is not there yet, and leaves one that is. -/
def putNew (key value : Value) (pairs : Pairs) : Pairs :=
  if pairs.any (fun p => p.1 == key) then pairs else pairs ++ [(key, value)]

end Pairs

/-- A dictionary whose keys are all texts, as those of records are. -/
abbrev Fields := List (String × Value)

def Value.ofFields (fields : Fields) : Value :=
  .dict (fields.map fun p => (.text p.1, p.2))

/-- Named arguments: their names are texts, whole or not. -/
abbrev Named := List (List Text.CodePoint × Value)

/-- The named values of a dictionary, if all its keys are texts. -/
def named? : Pairs → Option Named
  | [] => some []
  | (k, v) :: rest => do
    let name ← k.points?
    let others ← named? rest
    pure ((name, v) :: others)

end UsageReport
