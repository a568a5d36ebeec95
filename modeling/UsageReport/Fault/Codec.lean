/-
Faults about encodings: a stretch of bytes or characters that a codec refused, and why.  A
stretch of one is named, a longer or an empty one is only placed.
-/
import UsageReport.Value.Numeric

namespace UsageReport

open Text (CodePoint)

/-- What an argument of a fault about encodings must be. -/
inductive CodecArgument
  | text
  | whole
  /-- Bytes, which are asked for after all other arguments. -/
  | bytes
  deriving DecidableEq, Repr

namespace CodecArgument

/-- The arguments of a class of faults about encodings. -/
def shape? : String → Option (List CodecArgument)
  | "UnicodeDecodeError" => some [text, bytes, whole, whole, text]
  | "UnicodeEncodeError" => some [text, text, whole, whole, text]
  | "UnicodeTranslateError" => some [text, whole, whole, text]
  | _ => none

/-- The word for the kind of an argument that is no text. -/
def kindWord : Value → String
  | .null => "None"
  | v => v.kindName

def check (place : Nat) (expected : CodecArgument) (v : Value) : Except Failure Unit :=
  match expected, v with
  | .text, .text _ | .text, .broken _ | .bytes, _ => .ok ()
  | .text, v => .error (.argument (.noText place (kindWord v)))
  | .whole, v =>
    match v.whole? with
    | none => .error (.argument (.notWhole v.kindName))
    | some n => if isWord n then .ok () else .error .limitTooLarge

/-- Checks arguments in order, from a place on. -/
def checkAll : Nat → List CodecArgument → List Value → Except Failure Unit
  | place, expected :: shape, v :: args => do
    check place expected v
    checkAll (place + 1) shape args
  | _, _, _ => .ok ()

/-- Checks that what must be bytes is. -/
def checkBytes : List CodecArgument → List Value → Except Failure Unit
  | .bytes :: _, .bytes _ :: _ => .ok ()
  | .bytes :: _, v :: _ => .error (.argument (.notBytes v.kindName))
  | _ :: shape, _ :: args => checkBytes shape args
  | _, _ => .ok ()

/-- Checks all arguments of a fault about encodings. -/
def checkShape (shape : List CodecArgument) (args : List Value) : Except Failure Unit := do
  if args.length != shape.length then
    throw (.argument (.count "exactly" shape.length args.length))
  checkAll 1 shape args
  checkBytes shape args

end CodecArgument

namespace CodecFault

/-- A stretch: one member is named, anything else is placed. -/
def stretch (what : String) (named? : Option String) (start stop : Int) : String :=
  match named? with
  | some name =>
    if stop = start + 1 then what ++ " " ++ name ++ " in position " ++ toString start
    else placed
  | none => placed
where
  /-- A stretch that is only placed. -/
  placed : String :=
    what ++ "s in position " ++ toString start ++ "-" ++ toString (stop - 1)

/-- The member at a place. -/
def member? {α : Type} (xs : List α) (place : Int) : Option α :=
  if place < 0 then none else xs[place.toNat]?

def byteName (b : UInt8) : String := "0x" ++ String.ofList (Text.hexDigits 2 b.toNat)

def pointName (p : CodePoint) : String := "'" ++ String.ofList (escapeCode p.number) ++ "'"

/-- A stretch of a text.  A single character is looked up even before the text begins, where there
is none to be found. -/
def textStretch (points : List CodePoint) (start stop : Int) : Except Failure String :=
  if start < 0 ∧ stop = start + 1 then .error .strayResult
  else .ok (stretch "character" ((member? points start).map pointName) start stop)

/-- The text of a fault about encodings, if its arguments make up one. -/
def message? : List Value → Option (Except Failure (List CodePoint))
  | [codec, .bytes bs, start, stop, reason] => do
    let codec ← codec.points?
    let start ← start.whole?
    let stop ← stop.whole?
    let reason ← reason.points?
    let span := stretch "byte" ((member? bs start).map byteName) start stop
    pure (.ok (Text.points "'" ++ codec ++
      Text.points ("' codec can't decode " ++ span ++ ": ") ++ reason))
  | [codec, object, start, stop, reason] => do
    let codec ← codec.points?
    let points ← object.points?
    let start ← start.whole?
    let stop ← stop.whole?
    let reason ← reason.points?
    pure ((textStretch points start stop).map fun span =>
      Text.points "'" ++ codec ++ Text.points ("' codec can't encode " ++ span ++ ": ") ++ reason)
  | [object, start, stop, reason] => do
    let points ← object.points?
    let start ← start.whole?
    let stop ← stop.whole?
    let reason ← reason.points?
    pure ((textStretch points start stop).map fun span =>
      Text.points ("can't translate " ++ span ++ ": ") ++ reason)
  | _ => none

end CodecFault

end UsageReport
