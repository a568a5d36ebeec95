/-
Names of report entries.  A name is written into the report as it is, so it must be a text
that is not empty and needs no escape between quotes.
-/
import UsageReport.Fault

namespace UsageReport

open Text (CodePoint)

/-- Whether a code point may stand between the quotes of a JSON text as it is. -/
def isPlain : CodePoint → Bool
  | .char c => c != '"' && c != '\\' && 32 ≤ c.toNat
  | .surrogate _ => true

/-- A text that can be written between quotes as it is, and is not empty. -/
structure Name where
  points : List CodePoint
  points_ne_nil : points ≠ []
  points_plain : points.all isPlain = true
  deriving DecidableEq, Repr

def Name.value (name : Name) : Value := .ofPoints name.points

/-- The name of a text, if it can be one. -/
def Name.ofPoints? (points : List CodePoint) : Option Name :=
  if h : points ≠ [] ∧ points.all isPlain = true then some ⟨points, h.1, h.2⟩ else none

/-- The refusal of a name; it shows the name in the context. -/
def invalidName (shown : Value) : Fault :=
  .standard .invalidProviderName [("name", shown)]

/-- The refusal of what is no text, or an empty one.  It quotes the value, and so fails where the
value has no text. -/
def noName (name : Value) : Fault :=
  match name.shown with
  | .ok shown => invalidName (.text shown)
  | .error failure => .failed failure

/-- Accepts a value as the name of an entry. -/
def validateName (name : Value) : Outcome Name :=
  match name.points? with
  | none | some [] => .error (noName name)
  | some points =>
    match Name.ofPoints? points with
    | none => .error (invalidName name)
    | some name => .ok name

/-- The refusal of a name that is taken. -/
def duplicateName (name : Name) : Fault :=
  .standard .duplicateProvider [("name", name.value)]

theorem Name.points_injective : Function.Injective Name.points := by
  rintro ⟨points, _, _⟩ ⟨points', _, _⟩ h
  cases h
  rfl

/-- The text of a name can be a name. -/
@[simp] theorem Name.ofPoints?_points (name : Name) : Name.ofPoints? name.points = some name := by
  simp [Name.ofPoints?, name.points_ne_nil, name.points_plain]

/-- A text can be no name but the one whose text it is. -/
theorem Name.ofPoints?_eq_some_iff {points : List CodePoint} {n : Name} :
    Name.ofPoints? points = some n ↔ points = n.points := by
  constructor
  · intro h
    unfold Name.ofPoints? at h
    split at h
    · cases h
      rfl
    · cases h
  · rintro rfl
    exact n.ofPoints?_points

/-- A name is accepted as itself. -/
@[simp] theorem validateName_value (name : Name) : validateName name.value = .ok name := by
  rw [validateName, Name.value, Value.points?_ofPoints]
  split
  · contradiction
  · next h => exact absurd (Option.some.inj h) name.points_ne_nil
  · next h =>
    cases h
    rw [Name.ofPoints?_points]

end UsageReport
