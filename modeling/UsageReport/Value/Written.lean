/-
Which values have a text.  A whole number of too many digits is not written, and neither is what
holds one, at any depth; every other value has a text that shows its structure and a plain one.
-/
import UsageReport.Failure
import UsageReport.Json.Reader
import UsageReport.Value.Display

namespace UsageReport

open Text (CodePoint)

mutual

/-- Whether a value has a text: whole numbers of too many digits have none, at any depth. -/
def Value.hasText : Value → Bool
  | .int n => (Decimal.digitChars n.natAbs).length ≤ Json.digitLimit
  | .list xs | .tuple xs | .set xs => Value.allHaveText xs
  | .dict pairs => Value.pairsHaveText pairs
  | _ => true

def Value.allHaveText : List Value → Bool
  | [] => true
  | x :: xs => Value.hasText x && Value.allHaveText xs

def Value.pairsHaveText : List (Value × Value) → Bool
  | [] => true
  | (k, v) :: rest => Value.hasText k && Value.hasText v && Value.pairsHaveText rest

end

/-- The text that shows a value's structure, if the value has a text. -/
def Value.shown (v : Value) : Except Failure String :=
  if v.hasText then .ok v.describe else .error .tooLongToWrite

/-- The plain text of a value, lone halves included, if the value has a text. -/
def Value.written (v : Value) : Except Failure (List CodePoint) :=
  if v.hasText then .ok v.plain else .error .tooLongToWrite

theorem Value.written_eq_ok_iff {v : Value} {points : List CodePoint} :
    v.written = .ok points ↔ v.hasText = true ∧ v.plain = points := by
  unfold Value.written
  split
  · next h => simp [h]
  · next h => simp [h]

/-- A value without a text fails in one way only. -/
theorem Value.written_eq_error_iff {v : Value} {failure : Failure} :
    v.written = .error failure ↔ v.hasText = false ∧ failure = .tooLongToWrite := by
  unfold Value.written
  split
  · next h => simp [h]
  · next h => simp [Bool.eq_false_iff.mpr h, eq_comm]

/-- Whole numbers have a text as long as their digits are not too many. -/
theorem Value.hasText_int {n : Int} :
    (Value.int n).hasText = true ↔ n.natAbs < Decimal.pow10 Json.digitLimit := by
  have hlength (limit : Nat) (hlimit : 0 < limit) :
      (Decimal.digitChars n.natAbs).length ≤ limit ↔ n.natAbs < Decimal.pow10 limit :=
    Nat.length_toDigits_le_iff (by decide) hlimit
  rw [Value.hasText, decide_eq_true_eq, hlength Json.digitLimit (by decide)]

/-- A whole number without a text: its digits are one too many. -/
def Value.tooLong : Value := .int (Decimal.pow10 Json.digitLimit)

theorem Value.hasText_tooLong : Value.tooLong.hasText = false := by
  rw [Bool.eq_false_iff, ne_eq, Value.tooLong, Value.hasText_int, Int.natAbs_natCast]
  exact Nat.lt_irrefl (Decimal.pow10 Json.digitLimit)

/-- A text has a text, which is itself. -/
@[simp] theorem Value.hasText_ofPoints (points : List CodePoint) :
    (Value.ofPoints points).hasText = true := by
  unfold Value.ofPoints
  split <;> rfl

@[simp] theorem Value.plain_ofPoints (points : List CodePoint) :
    (Value.ofPoints points).plain = points := by
  rw [Value.plain, Value.points?_ofPoints, Option.getD_some]

@[simp] theorem Value.written_text (s : String) : (Value.text s).written = .ok (Text.points s) :=
  rfl

end UsageReport
