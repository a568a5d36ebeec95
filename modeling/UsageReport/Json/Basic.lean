/-
JSON documents as they are read.  Objects keep their members in order, repeated names
included; what a repeated name means is a rule of its own.
-/
import UsageReport.Value.Basic

namespace UsageReport.Json

open Text (CodePoint)

inductive Document
  | null
  | bool (b : Bool)
  | int (n : Int)
  | float (x : Float)
  | text (s : List CodePoint)
  | array (xs : List Document)
  | object (members : List (List CodePoint × Document))
  deriving Inhabited

variable {α : Type}

/-- Sets a member: an old name keeps its place and takes the new content. -/
def putMember (name : List CodePoint) (content : α) :
    List (List CodePoint × α) → List (List CodePoint × α)
  | [] => [(name, content)]
  | (n, old) :: rest =>
    if n = name then (n, content) :: rest else (n, old) :: putMember name content rest

/-- The members of an object, each name once, with its last content at its first place. -/
def lastWins (members : List (List CodePoint × α)) : List (List CodePoint × α) :=
  members.foldl (fun done m => putMember m.1 m.2 done) []

mutual

def Document.toValue : Document → Value
  | .null => .null
  | .bool b => .bool b
  | .int n => .int n
  | .float x => .float x
  | .text s => Value.ofPoints s
  | .array xs => .list (Document.toValues xs)
  | .object members =>
    .dict ((lastWins (Document.toMembers members)).map fun m => (Value.ofPoints m.1, m.2))

def Document.toValues : List Document → List Value
  | [] => []
  | d :: ds => Document.toValue d :: Document.toValues ds

/-- The named values of an object, repeated names included. -/
def Document.toMembers :
    List (List CodePoint × Document) → List (List CodePoint × Value)
  | [] => []
  | (name, d) :: rest => (name, Document.toValue d) :: Document.toMembers rest

end

end UsageReport.Json
