/-
Which values can be the keys of dictionaries and the members of sets.  Whatever can change
cannot: lists, dictionaries, sets, and tuples that hold one of these.
-/
import UsageReport.Failure
import UsageReport.Value.Basic

namespace UsageReport

mutual

/-- The kind of the first part of a value for which it cannot be a key. -/
def Value.unhashable? : Value → Option String
  | .list _ => some "list"
  | .dict _ => some "dict"
  | .set _ => some "set"
  | .tuple xs => Value.firstUnhashable? xs
  | _ => none

/-- The kind of the first such part of a sequence. -/
def Value.firstUnhashable? : List Value → Option String
  | [] => none
  | x :: xs => Value.unhashable? x <|> Value.firstUnhashable? xs

end

/-- Sets a key that a dictionary may have. -/
def Pairs.insert (pairs : Pairs) (key value : Value) : Except Failure Pairs :=
  match key.unhashable? with
  | some kind => .error (.unhashable kind)
  | none => .ok (pairs.put key value)

/-- The dictionary that a list of settings leaves behind; the first key that cannot be one
decides the failure. -/
def Pairs.ofListed (pairs : List (Value × Value)) : Except Failure Pairs :=
  pairs.foldlM (fun d p => d.insert p.1 p.2) []

/-- The set of values that can be its members. -/
def Value.setOf (members : List Value) : Except Failure Value :=
  match Value.firstUnhashable? members with
  | some kind => .error (.unhashable kind)
  | none => .ok (.set members)

end UsageReport
