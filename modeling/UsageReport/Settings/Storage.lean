/-
Configuration on disk.  Loading takes a missing file for the defaults and refuses anything
else that is not a valid configuration.  Saving writes a temporary file beside the target and
moves it there in one step, so the target holds either the old content or the new one; whatever
ends a save, the temporary file goes away.
-/
import UsageReport.FileTree
import UsageReport.Json.Writer
import UsageReport.Settings.Basic

namespace UsageReport

/-- Line ends as they are read from a text file: a carriage return, alone or before a line
feed, counts as a line feed. -/
def unifyLines : List Char → List Char
  | '\r' :: '\n' :: rest => '\n' :: unifyLines rest
  | '\r' :: rest => '\n' :: unifyLines rest
  | c :: rest => c :: unifyLines rest
  | [] => []

namespace ConfigFile

/-- A configuration error with a message, the path, and what else is told. -/
def configError (message path : String) (more : Fields) (cause : Option Fault) : Fault :=
  .known (ReportError.of .config (.text message)
    ((.text "path", .text path) :: more.map fun p => (.text p.1, p.2))) cause

/-- A configuration error with a message, the path, and the text of what led to it, if something
did and has a text. -/
def refusal (message path : String) : Option Fault → Fault
  | none => configError message path [] none
  | some f =>
    match f.message with
    | .ok text => configError message path [("error", .ofPoints text)] (some f)
    | .error failure => .failed failure

variable (coercions : Field.Coercions)

/-- The configuration that a document spells. -/
def ofDocument (path : String) (d : Json.Document) : Outcome ConfigFile :=
  match d.toValue with
  | .dict pairs =>
    match ofPairs coercions pairs with
    | .ok c => .ok c
    | .error problems =>
      .error (refusal "Statistics config failed validation." path (some (.invalid problems)))
  | _ => .error (refusal "Statistics config must be a JSON object." path none)

/-- The configuration that a text spells. -/
def ofText (path : String) (cs : List Char) : Outcome ConfigFile :=
  let points := cs.map Text.CodePoint.char
  match Json.read points with
  | .ok d => ofDocument coercions path d
  | .error (.mistake kind rest) =>
    .error (refusal "Statistics config is not valid JSON." path
      (some (.notJson (kind.wording ++ Json.placeText points rest))))
  | .error (.tooLong digits) => fail (.tooLongToRead digits)

def load (t : FileTree) (path : String) : Outcome ConfigFile :=
  if !t.has path then .ok {}
  else match t.readFile path with
    | .error f => .error (refusal "Statistics config could not be read." path (some f))
    | .ok content =>
      match content.characters with
      | .error fault => fail (.notUtf8 fault)
      | .ok cs => ofText coercions path (unifyLines cs)

def style : Json.Style := { indent := some 2, ascii := false }

def text (c : ConfigFile) : Except Failure String := (style.text c.sorted).map (· ++ "\n")

/-- The name of a temporary file around a word that was drawn. -/
def temporaryName (word : String) : String := ".tmp_" ++ word ++ ".json"

/-- How many names are drawn before a save gives up. -/
def mostDraws : Nat := 238328

/-- The first name that is not taken in a directory, of those around the words from the `n`th
on; `fuel` bounds how many are tried. -/
def freeName? (t : FileTree) (directory : TreePath) (words : Nat → String) :
    Nat → Nat → Option String
  | 0, _ => none
  | fuel + 1, n =>
    match t.node? (directory ++ [temporaryName (words n)]) with
    | none => some (temporaryName (words n))
    | some _ => freeName? t directory words fuel (n + 1)

/-- The refusal of a temporary file when all names that were drawn are taken. -/
def noFreeName : Fault :=
  .raised "FileExistsError" [.int 17, .text "No usable temporary file name found"]

/-- What stops a save although the tree allows it, such as a full disk or a missing right.  Part
of the work may be done by then. -/
inductive Obstacle
  /-- Directories are made up to `made`, and the next one is refused. -/
  | directories (made : String) (fault : Fault)
  /-- No temporary file can be made. -/
  | temporary (fault : Fault)
  /-- No more than `bytes` get into the temporary file. -/
  | writing (bytes : List UInt8) (fault : Fault)
  /-- The temporary file cannot be moved. -/
  | moving (fault : Fault)

/-- The place of the directory that a file goes into; it is made if it is missing. -/
def openHome (obstacle : Option Obstacle) (t : FileTree) (path : String) :
    FileTree × Outcome TreePath :=
  match obstacle with
  | some (.directories made fault) => ((t.ensure made).1, .error fault)
  | _ =>
    match t.ensure (PathName.homeOf path) with
    | (t, .error f) => (t, .error f)
    | (t, .ok ()) =>
      match t.locate (PathName.homeOf path) with
      | .ok (.directory place) => (t, .ok place)
      | _ => (t, FileTree.refuse .missing (PathName.homeOf path))

/-- A place in a directory where a temporary file can be made. -/
def drawPlace (obstacle : Option Obstacle) (t : FileTree) (directory : TreePath)
    (words : Nat → String) : Outcome TreePath :=
  match obstacle with
  | some (.temporary fault) => .error fault
  | _ =>
    match freeName? t directory words mostDraws 0 with
    | some name => .ok (directory ++ [name])
    | none => .error noFreeName

/-- Writes the configuration into the temporary file.  What a text that cannot be encoded leaves
in it does not matter, since the file goes away then. -/
def fill (obstacle : Option Obstacle) (t : FileTree) (temporary : TreePath) (c : ConfigFile) :
    FileTree × Outcome Unit :=
  match obstacle with
  | some (.writing bytes fault) => (t.put temporary (.file (.bytes bytes)), .error fault)
  | _ =>
    match c.text with
    | .error failure => (t, fail failure)
    | .ok s => (t.put temporary (.file (.bytes s.toUTF8.toList)), .ok ())

/-- Moves the temporary file onto the target. -/
def install (obstacle : Option Obstacle) (t : FileTree) (temporary : TreePath)
    (current path : String) : FileTree × Outcome Unit :=
  match obstacle with
  | some (.moving fault) => (t, .error fault)
  | _ =>
    match t.moveFile temporary (current ++ "/" ++ FileTree.pathOf temporary) path with
    | .ok moved => (moved, .ok ())
    | .error f => (t, .error f)

/-- Removes the temporary file, if it is still there. -/
def sweep (t : FileTree) (temporary : TreePath) : FileTree :=
  if (t.node? temporary).isSome then t.erase temporary else t

/-- Saves a configuration, as far as the obstacle lets it, if there is one.  `current` is the
absolute path of the root, as refusals show it, and `words` are drawn for temporary names.  The
tree comes back also on a refusal. -/
def saveUnder (obstacle : Option Obstacle) (t : FileTree) (current : String)
    (words : Nat → String) (path : String) (c : ConfigFile) : FileTree × Outcome String :=
  match openHome obstacle t path with
  | (t, .error f) => (t, .error f)
  | (t, .ok directory) =>
    match drawPlace obstacle t directory words with
    | .error f => (t, .error f)
    | .ok temporary =>
      -- From here on the temporary file is there, and it goes away however the rest ends.
      match fill obstacle (t.put temporary (.file (.bytes []))) temporary c with
      | (t, .error f) => (sweep t temporary, .error f)
      | (t, .ok ()) =>
        match install obstacle t temporary current path with
        | (t, .error f) => (sweep t temporary, .error f)
        | (t, .ok ()) => (sweep t temporary, .ok path)

/-- Saves a configuration.  `word` is drawn for the temporary name, and drawn again with a number
as long as the name is taken. -/
def save (t : FileTree) (current word path : String) (c : ConfigFile) :
    FileTree × Outcome String :=
  saveUnder none t current (fun n => if n = 0 then word else word ++ toString n) path c

end ConfigFile

end UsageReport
