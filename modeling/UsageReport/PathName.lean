/-
Paths as settings give them.  Most are texts.  Lone halves of surrogate pairs in a path may stand
for bytes that are no text; other halves can be kept and compared, but a path with them names
nothing that could be made or opened.
-/
import UsageReport.Text.CodePoint

namespace UsageReport

inductive PathName
  | text (path : String)
  /-- A path with lone halves that all stand for bytes. -/
  | escaped (points : List Text.CodePoint)
  /-- A path with other lone halves, the first of which tell why it names nothing. -/
  | broken (points : List Text.CodePoint) (fault : Text.UnpairedFault)
  deriving DecidableEq, Repr, Inhabited

namespace PathName

/-- The path that code points spell. -/
def ofPoints (points : List Text.CodePoint) : PathName :=
  match Text.unpairedInPath? points with
  | some fault => .broken points fault
  | none =>
    match Text.characters? points with
    | some cs => .text (String.ofList cs)
    | none => .escaped points

/-- The path as text, as far as it is one. -/
def shown : PathName → String
  | .text path => path
  | .escaped points | .broken points _ => String.ofList (Text.legible points)

/-- A path cut after its last slash; the first part loses the slashes that end it, unless it
has nothing else. -/
def cut {α : Type} (isSlash : α → Bool) (path : List α) : List α × List α :=
  let back := path.reverse
  let tail := (back.takeWhile (!isSlash ·)).reverse
  let head := back.dropWhile (!isSlash ·)
  let trimmed := head.dropWhile isSlash
  ((if trimmed.isEmpty then head else trimmed).reverse, tail)

/-- A path in text cut after its last slash. -/
def split (path : String) : String × String :=
  let (head, tail) := cut (· == '/') path.toList
  (String.ofList head, String.ofList tail)

/-- The directory that a file goes into: the directory part of its path, or the current one. -/
def homeOf (path : String) : String := if (split path).1 = "" then "." else (split path).1

def home : PathName → PathName
  | .text path => .text (homeOf path)
  | .escaped points | .broken points _ =>
    match (cut (· == .char '/') points).1 with
    | [] => .text "."
    | head => ofPoints head

/-- The directory above the first part of a path that names nothing; empty if there is none. -/
def soundPart (points : List Text.CodePoint) (fault : Text.UnpairedFault) : String :=
  String.ofList (Text.legible (cut (· == .char '/') (points.take fault.position)).1)

end PathName

end UsageReport
