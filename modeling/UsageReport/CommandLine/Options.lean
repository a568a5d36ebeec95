/-
The options of the command line.  A long option may be cut short as long as only one option
begins that way, and its value may follow an equals sign or be the next word; short options
without values may be run together.  Words after a lone double dash are no options.
-/
import UsageReport.Fault

namespace UsageReport.CommandLine

inductive Switch
  | help
  | full
  | pretty
  | config
  deriving DecidableEq, Repr

/-- All spellings of the options, in the order in which they are told. -/
def spellings : List (String × Switch) :=
  [("-h", .help), ("--help", .help), ("--full", .full), ("--pretty", .pretty),
    ("--config", .config)]

def Switch.takesValue (s : Switch) : Bool := s == .config

/-- All spellings of an option, as mistakes name it. -/
def Switch.title (s : Switch) : String :=
  "/".intercalate ((spellings.filter (·.2 == s)).map (·.1))

/-- What is wrong with the words of a command line. -/
inductive UsageError
  /-- A word cuts more than one option short. -/
  | ambiguous (word : String) (candidates : List String)
  /-- An option without a value was given this one. -/
  | unexpectedValue (option : Switch) (value : String)
  | missingValue (option : Switch)
  /-- Words that mean nothing. -/
  | unrecognized (words : List String)

def UsageError.message : UsageError → String
  | .ambiguous word candidates =>
    "ambiguous option: " ++ word ++ " could match " ++ ", ".intercalate candidates
  | .unexpectedValue option value =>
    "argument " ++ option.title ++ ": ignored explicit argument " ++ quoteText value
  | .missingValue option => "argument " ++ option.title ++ ": expected one argument"
  | .unrecognized words => "unrecognized arguments: " ++ " ".intercalate words

inductive Word
  | plain (text : String)
  /-- The double dash after which there are no options. -/
  | separator
  /-- An option, whether it is spelled short, and the value attached to it. -/
  | option (which : Switch) (short : Bool) (attached : Option String)
  /-- A word that looks like an option and is none. -/
  | unknown (text : String)

/-- Whether characters are a negative number; a line end may follow it. -/
def isNegativeNumber : List Char → Bool
  | '-' :: rest =>
    let isDigit := fun c => (Text.decimalDigit? c).isSome
    let rest := if rest.getLast? = some '\n' then rest.dropLast else rest
    match rest.dropWhile isDigit with
    | [] => !rest.isEmpty
    | '.' :: fraction => !fraction.isEmpty && fraction.all isDigit
    | _ => false
  | _ => false

/-- A word cut at its first equals sign, if it has one. -/
def cutEquals (cs : List Char) : List Char × Option (List Char) :=
  match cs.dropWhile (· != '=') with
  | [] => (cs, none)
  | _ :: value => (cs.takeWhile (· != '='), some value)

/-- The options that a word may be short for: their spellings and the values attached. -/
def candidates (cs : List Char) : List (String × Switch × Option String) :=
  match cs with
  | '-' :: '-' :: _ =>
    let (head, value) := cutEquals cs
    (spellings.filter fun s => head.isPrefixOf s.1.toList).map fun s =>
      (s.1, s.2, value.map String.ofList)
  | '-' :: c :: rest =>
    spellings.filterMap fun s =>
      if s.1.toList = ['-', c] then some (s.1, s.2, some (String.ofList rest))
      else if cs.isPrefixOf s.1.toList then some (s.1, s.2, none)
      else none
  | _ => []

def isShort (spelling : String) : Bool := spelling.length == 2

/-- What a word means. -/
def Word.ofText (text : String) : Except UsageError Word :=
  let cs := text.toList
  if cs.head? != some '-' then .ok (.plain text)
  else match spellings.lookup text with
    | some s => .ok (.option s (isShort text) none)
    | none =>
      if cs = ['-'] then .ok (.plain text)
      else
        let (head, value) := cutEquals cs
        match value, spellings.lookup (String.ofList head) with
        | some v, some s =>
          .ok (.option s (isShort (String.ofList head)) (some (String.ofList v)))
        | _, _ =>
          match candidates cs with
          | [(spelling, s, attached)] => .ok (.option s (isShort spelling) attached)
          | [] =>
            .ok (if isNegativeNumber cs || cs.contains ' ' then .plain text else .unknown text)
          | several => .error (.ambiguous text (several.map (·.1)))

def words : List String → Except UsageError (List (String × Word))
  | [] => .ok []
  | text :: rest =>
    if text = "--" then .ok ((text, .separator) :: rest.map fun t => (t, .plain t))
    else do
      let word ← Word.ofText text
      let others ← words rest
      pure ((text, word) :: others)

/-- What a command line asks for. -/
structure Request where
  full : Bool := false
  pretty : Bool := false
  /-- The path of the configuration, unless the option was given a value that is none. -/
  config : Option String := some "config/memstats.json"
  deriving DecidableEq, Repr

/-- How a command line ends up. -/
inductive Parsed
  | request (r : Request)
  | help
  | wrong (e : UsageError)

def Request.set (r : Request) : Switch → Request
  | .full => { r with full := true }
  | .pretty => { r with pretty := true }
  | .help | .config => r

/-- The end of a run of short options: all must ask for help. -/
def shortRun (value : String) : Parsed :=
  match value.toList.dropWhile (· == 'h') with
  | [] => if value = "" then .wrong (.unexpectedValue .help value) else .help
  | rest => .wrong (.unexpectedValue .help (String.ofList rest))

/-- The value that is attached to an option; a double dash is none. -/
def attachedValue (text : String) : Option String := if text = "--" then none else some text

/-- Reads words in order; `strays` are those that meant nothing so far. -/
def parseWords : Request → List String → List (String × Word) → Parsed
  | r, [], [] => .request r
  | _, strays, [] => .wrong (.unrecognized strays)
  | r, strays, (text, word) :: rest =>
    match word with
    | .plain _ | .separator | .unknown _ => parseWords r (strays ++ [text]) rest
    | .option .config _ (some value) =>
      parseWords { r with config := attachedValue value } strays rest
    | .option .config _ none =>
      match rest with
      | (_, .plain value) :: more => parseWords { r with config := some value } strays more
      | _ => .wrong (.missingValue .config)
    | .option .help short attached =>
      match short, attached with
      | _, none => .help
      | true, some value => shortRun value
      | false, some value => .wrong (.unexpectedValue .help value)
    | .option s _ none => parseWords (r.set s) strays rest
    | .option s _ (some value) => .wrong (.unexpectedValue s value)

def parse (arguments : List String) : Parsed :=
  match words arguments with
  | .ok ws => parseWords {} [] ws
  | .error e => .wrong e

def programName : String := "print_memory_stats.py"

/-- The line that tells how the program is used. -/
def usage : String :=
  "usage: " ++ programName ++ " [-h] [--full] [--pretty] [--config CONFIG]\n"

/-- The text of the help option. -/
def helpText : String :=
  usage ++ "\nPrint a memory statistics report.\n\noptions:\n" ++
    "  -h, --help       show this help message and exit\n" ++
    "  --full           ask providers for their detailed fragment\n" ++
    "  --pretty         indent the JSON report\n" ++
    "  --config CONFIG\n"

/-- What is told about a usage error. -/
def UsageError.text (e : UsageError) : String :=
  usage ++ programName ++ ": error: " ++ e.message ++ "\n"

end UsageReport.CommandLine
