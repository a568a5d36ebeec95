/-
A tree of directories and files, and the operations on it.  A path is walked from the root;
empty parts and dots stay where they are, two dots go up, and every part but the last must be
a directory.  What goes wrong on the way is a refusal, told with the path as it was given.
-/
import UsageReport.Fault
import UsageReport.PathName

namespace UsageReport

/-- What a file holds: a text, or bytes that may spell none. -/
inductive Content
  | text (s : String)
  | bytes (bs : List UInt8)
  deriving DecidableEq

def Content.toBytes : Content → List UInt8
  | .text s => s.toUTF8.toList
  | .bytes bs => bs

/-- A content with a text added at its end. -/
def Content.append (c : Content) (s : String) : Content :=
  match c with
  | .text t => .text (t ++ s)
  | .bytes bs => .bytes (bs ++ s.toUTF8.toList)

/-- The characters of a content, or its first fault. -/
def Content.characters : Content → Except Text.Utf8Fault (List Char)
  | .text s => .ok s.toList
  | .bytes bs => Text.utf8Decode bs

/-- A place in the tree, by the names from the root on. -/
abbrev TreePath := List String

inductive Node
  | directory
  | file (content : Content)
  deriving DecidableEq

/-- Directories and files; the root is a directory that need not be listed. -/
structure FileTree where
  nodes : List (TreePath × Node)
  deriving DecidableEq

/-- Where a path leads. -/
inductive Spot
  | directory (place : TreePath)
  | file (place : TreePath) (content : Content)
  /-- Nothing is there, but its directory is; whether the path asks for a directory. -/
  | vacant (place : TreePath) (asDirectory : Bool)

namespace FileTree

def empty : FileTree := ⟨[]⟩

/-- What stands at a place. -/
def node? (t : FileTree) (place : TreePath) : Option Node :=
  if place = [] then some .directory else List.lookup place t.nodes

def putNode (place : TreePath) (n : Node) : List (TreePath × Node) → List (TreePath × Node)
  | [] => [(place, n)]
  | (p, old) :: rest => if p = place then (p, n) :: rest else (p, old) :: putNode place n rest

def put (t : FileTree) (place : TreePath) (n : Node) : FileTree := ⟨putNode place n t.nodes⟩

def erase (t : FileTree) (place : TreePath) : FileTree := ⟨t.nodes.filter (·.1 != place)⟩

/-- The greatest number of bytes that a name may have. -/
def longestName : Nat := 255

/-- Walks the parts of a path from a directory. -/
def walk (t : FileTree) (place : TreePath) : List String → Except FileRefusal Spot
  | [] => .ok (.directory place)
  | part :: rest =>
    if part = "" ∨ part = "." then walk t place rest
    else if part = ".." then walk t place.dropLast rest
    else if longestName < part.utf8ByteSize then .error .nameTooLong
    else match t.node? (place ++ [part]) with
      | some .directory => walk t (place ++ [part]) rest
      | some (.file content) =>
        if rest.isEmpty then .ok (.file (place ++ [part]) content) else .error .notDirectory
      | none =>
        if rest.all (· == "") then .ok (.vacant (place ++ [part]) !rest.isEmpty)
        else .error .missing

/-- The pieces of a text between the marks; there is one more of them than of the marks. -/
def piecesAt (mark : Char) (text : List Char) : List (List Char) :=
  text.foldr (fun c pieces => if c = mark then [] :: pieces else match pieces with
    | [] => [[c]]
    | piece :: rest => (c :: piece) :: rest) [[]]

def parts (path : String) : List String := (piecesAt '/' path.toList).map String.ofList

/-- The greatest number of bytes that a path may have. -/
def longestPath : Nat := 4095

/-- Where a path leads; the empty path leads nowhere. -/
def locate (t : FileTree) (path : String) : Except FileRefusal Spot :=
  if path = "" then .error .missing
  else if longestPath < path.utf8ByteSize then .error .nameTooLong
  else t.walk [] (parts path)

/-- Whether a path holds the character that no path may hold. -/
def hasNull (path : String) : Bool := path.toList.contains '\x00'

def has (t : FileTree) (path : String) : Bool :=
  !hasNull path && match t.locate path with
    | .ok (.vacant _ _) | .error _ => false
    | .ok _ => true

def isDirectory (t : FileTree) (path : String) : Bool :=
  !hasNull path && match t.locate path with
    | .ok (.directory _) => true
    | _ => false

/-- A refusal that tells the path. -/
def refuse {α : Type} (refusal : FileRefusal) (path : String) : Outcome α :=
  fail (.file refusal (quoteText path) none)

/-- A path without the slashes that end it, unless it has nothing else. -/
def withoutEndSlashes (path : String) : String :=
  match path.toList.reverse.dropWhile (· == '/') with
  | [] => path
  | back => String.ofList back.reverse

/-- Makes one directory.  Slashes at the end of the path ask for nothing. -/
def makeDirectory (t : FileTree) (path : String) : Outcome FileTree :=
  if hasNull path then fail .nullByte
  else if longestPath < path.utf8ByteSize then refuse .nameTooLong path
  else match t.locate (withoutEndSlashes path) with
    | .error refusal => refuse refusal path
    | .ok (.vacant place _) => .ok (t.put place .directory)
    | .ok _ => refuse .exists path

/-- A path cut into directory and last name, slashes at the end apart. -/
def splitName (path : String) : String × String :=
  let (head, tail) := PathName.split path
  if tail = "" then PathName.split head else (head, tail)

/-- Makes one directory, content with one that is there. -/
def ensureDirectory (t : FileTree) (path : String) : FileTree × Outcome Unit :=
  match t.makeDirectory path with
  | .ok t' => (t', .ok ())
  | .error f =>
    match f with
    | .failed (.file _ _ _) => if t.isDirectory path then (t, .ok ()) else (t, .error f)
    | f => (t, .error f)

/-- Whether a fault says that something is there already. -/
def isExists : Fault → Bool
  | .failed (.file .exists _ _) => true
  | _ => false

/-- Makes a directory and those above it, content with those that are there.  The tree comes
back also when a directory is refused, with those made before. -/
def makeDirectories : Nat → FileTree → String → FileTree × Outcome Unit
  | 0, t, path => t.ensureDirectory path
  | fuel + 1, t, path =>
    let (head, tail) := splitName path
    if head = "" ∨ tail = "" ∨ t.has head then t.ensureDirectory path
    else
      match makeDirectories fuel t head with
      | (t, .error f) =>
        if isExists f then
          if tail = "." then (t, .ok ()) else t.ensureDirectory path
        else (t, .error f)
      | (t, .ok ()) => if tail = "." then (t, .ok ()) else t.ensureDirectory path

/-- Makes a directory and those above it. -/
def ensure (t : FileTree) (path : String) : FileTree × Outcome Unit :=
  makeDirectories path.length t path

/-- Makes a directory and those above it.  Above the first part of a path that names nothing
they are made as far as they are missing. -/
def ensureName (t : FileTree) : PathName → FileTree × Outcome Unit
  | .text path => t.ensure path
  | .escaped points => t.ensure (PathName.escaped points).shown
  | .broken points fault =>
    let sound := PathName.soundPart points fault
    let (t, outcome) := if sound = "" ∨ t.has sound then (t, .ok ()) else t.ensure sound
    match outcome with
    | .ok () => (t, fail (.unpaired fault))
    | .error f => (t, if isExists f then fail (.unpaired fault) else .error f)

def readFile (t : FileTree) (path : String) : Outcome Content :=
  if hasNull path then fail .nullByte
  else match t.locate path with
    | .error refusal => refuse refusal path
    | .ok (.file _ content) => .ok content
    | .ok (.directory _) => refuse .isDirectory path
    | .ok (.vacant _ _) => refuse .missing path

/-- Adds a text at the end of a file, which is made if it is not there. -/
def appendFile (t : FileTree) (path s : String) : Outcome FileTree :=
  if hasNull path then fail .nullByte
  else match t.locate path with
    | .error refusal => refuse refusal path
    | .ok (.file place content) => .ok (t.put place (.file (content.append s)))
    | .ok (.directory _) => refuse .isDirectory path
    | .ok (.vacant place asDirectory) =>
      if asDirectory then refuse .isDirectory path else .ok (t.put place (.file (.text s)))

def appendName (t : FileTree) (path : PathName) (s : String) : Outcome FileTree :=
  match path with
  | .text path => t.appendFile path s
  | .escaped points => t.appendFile (PathName.escaped points).shown s
  | .broken _ fault => fail (.unpaired fault)

/-- Puts a content into a file, which is made if it is not there, with the directories above. -/
def writeFile (t : FileTree) (path : String) (content : Content) : FileTree × Outcome Unit :=
  match t.ensure (PathName.homeOf path) with
  | (t, .error f) => (t, .error f)
  | (t, .ok ()) =>
    match t.appendFile path "" with
    | .error f => (t, .error f)
    | .ok made =>
      match made.locate path with
      | .ok (.file place _) => (made.put place (.file content), .ok ())
      | _ => (made, .ok ())

/-- The lines of a file that holds a text; what follows the last line end counts as one. -/
def lines? (t : FileTree) (path : String) : Option (List String) :=
  match t.readFile path with
  | .error _ => none
  | .ok content =>
    match content.characters with
    | .error _ => none
    | .ok cs => some ((piecesAt '\n' cs).map String.ofList)

/-- Whether a path ends in a dot or two, and so names a directory by its relation. -/
def endsRelative (path : String) : Bool :=
  match ((parts path).filter (· != "")).getLast? with
  | some "." | some ".." => true
  | _ => false

/-- Whether a path ends in a slash. -/
def endsInSlash (path : String) : Bool := path.toList.getLast? == some '/'

/-- Moves a file onto a path, whose file it replaces; `shown` is how the moved file is named
in refusals. -/
def moveFile (t : FileTree) (source : TreePath) (shown path : String) : Outcome FileTree :=
  let refuseMove (refusal : FileRefusal) : Outcome FileTree :=
    fail (.file refusal (quoteText shown) (some (quoteText path)))
  let content := match t.node? source with
    | some n => n
    | none => .directory
  if hasNull path then fail .nullByte
  else match t.locate path with
    | .error refusal => refuseMove refusal
    | .ok (.directory _) =>
      if endsRelative path then refuseMove .busy
      else if endsInSlash path then refuseMove .notDirectory
      else refuseMove .isDirectory
    | .ok (.file place _) => .ok ((t.erase source).put place content)
    | .ok (.vacant place asDirectory) =>
      if asDirectory then refuseMove .notDirectory else .ok ((t.erase source).put place content)

/-- A place as a path from the root. -/
def pathOf (place : TreePath) : String := "/".intercalate place

/-- All paths in order, directories with a slash at their end. -/
def listing (t : FileTree) : List String :=
  ("./" :: t.nodes.map fun n => match n.2 with
    | .directory => pathOf n.1 ++ "/"
    | .file _ => pathOf n.1).mergeSort (· ≤ ·)

/-- The files and the number of bytes they hold, in the order of their paths. -/
def sizes (t : FileTree) : List (String × Nat) :=
  (t.nodes.filterMap fun n => match n.2 with
    | .directory => none
    | .file content => some (pathOf n.1, match content with
      | .text s => s.utf8ByteSize
      | .bytes bs => bs.length)).mergeSort fun a b => a.1 ≤ b.1

end FileTree

end UsageReport
