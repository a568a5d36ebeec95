/-
The ways an operation of this library can fail, each as a cause of its own.  A failure has a
class, which is how callers tell kinds of failures apart, and a message.
-/
import UsageReport.Failure.Argument
import UsageReport.Text.CodePoint
import UsageReport.Text.Utf8
import UsageReport.Text.Digit

namespace UsageReport

open Text (CodePoint)

/-- What the file system refuses. -/
inductive FileRefusal
  | missing
  | exists
  | notDirectory
  | isDirectory
  | notEmpty
  | busy
  | nameTooLong
  deriving DecidableEq, Repr

def FileRefusal.number : FileRefusal → Nat
  | .missing => 2
  | .busy => 16
  | .exists => 17
  | .notDirectory => 20
  | .isDirectory => 21
  | .nameTooLong => 36
  | .notEmpty => 39

def FileRefusal.wording : FileRefusal → String
  | .missing => "No such file or directory"
  | .busy => "Device or resource busy"
  | .exists => "File exists"
  | .notDirectory => "Not a directory"
  | .isDirectory => "Is a directory"
  | .nameTooLong => "File name too long"
  | .notEmpty => "Directory not empty"

def FileRefusal.className : FileRefusal → String
  | .missing => "FileNotFoundError"
  | .exists => "FileExistsError"
  | .notDirectory => "NotADirectoryError"
  | .isDirectory => "IsADirectoryError"
  | .busy | .nameTooLong | .notEmpty => "OSError"

/-- Why an operation failed.  Quoted texts in the messages come in ready for print. -/
inductive Failure
  /-- A dictionary key of this kind has no JSON form. -/
  | keyKind (kind : String)
  /-- A value of this kind has no JSON form. -/
  | valueKind (kind : String)
  /-- A number that is infinite or none has no JSON form. -/
  | notFinite
  /-- A whole number has too many digits to be written. -/
  | tooLongToWrite
  /-- A whole number has too many digits to be read. -/
  | tooLongToRead (digits : Nat)
  /-- A member of a sequence to be joined is no text. -/
  | joinKind (index : Nat) (kind : String)
  | cannotJoin
  /-- A provider's text does not continue a JSON object. -/
  | fragmentSyntax (reason : String)
  /-- A provider left something else than text. -/
  | fragmentKind (kind : String)
  | notIterable (kind : String)
  /-- A value of this kind cannot be the key of a dictionary. -/
  | unhashable (kind : String)
  /-- Named arguments need names. -/
  | keywordKind
  /-- More arguments in order than the constructor takes. -/
  | tooManyArguments (owner : String) (takes : String) (given : Nat)
  /-- An argument is given both in order and by name. -/
  | repeatedArgument (owner : String) (name : String)
  /-- A name is given twice. -/
  | repeatedName (owner : String) (name : String)
  | missingArguments (owner : String) (names : List String)
  | unexpectedArgument (owner : String) (name : List CodePoint)
  | noNamedArguments (owner : String)
  /-- An exception cannot be built from its arguments. -/
  | argument (mistake : ArgumentMistake)
  | noSuchField (kind : String) (field : String)
  /-- No whole number can be read from this text. -/
  | intLiteral (shown : String)
  /-- No number can be read from this text. -/
  | floatLiteral (shown : String)
  | intKind (kind : String)
  | floatKind (kind : String)
  | nanToInt
  | infinityToInt
  | intToFloat
  | limitTooLarge
  /-- Values of these kinds cannot be ordered. -/
  | incomparable (left right : String)
  | noLength (kind : String)
  /-- There is no such operation on values of these kinds. -/
  | unsupported (operation left right : String)
  /-- A whole number cannot be added to a sequence of this kind. -/
  | cannotConcatenate (kind : String)
  | cannotConcatenateBytes
  | notSliceable
  | cannotRepeat
  | notSubscriptable (kind : String)
  | envelopeBuilt
  | alreadyStarted
  | noStatistics (shown : String)
  | timeout
  | cancelled
  /-- A result arrived at a channel that is closed to it. -/
  | invalidState
  | notUtf8 (fault : Text.Utf8Fault)
  /-- A text with lone halves cannot be written. -/
  | unpaired (fault : Text.UnpairedFault)
  /-- The file system refused; the paths are ready for print, the second one of a move. -/
  | file (refusal : FileRefusal) (path : String) (target : Option String)
  /-- A path holds the character that ends paths. -/
  | nullByte
  /-- There is no path to be looked at. -/
  | noPath
  /-- A text was made although a part of it could not be found. -/
  | strayResult
  /-- The program ends with this code. -/
  | exit (code : Nat)

/-- Names joined as in a sentence. -/
def joinNames : List String → String
  | [] => ""
  | [a] => a
  | [a, b] => a ++ " and " ++ b
  | a :: rest => ", ".intercalate (a :: rest.dropLast) ++ ", and " ++ rest.getLastD ""

def Text.Utf8Reason.wording : Text.Utf8Reason → String
  | .startByte => "invalid start byte"
  | .continuationByte => "invalid continuation byte"
  | .endOfData => "unexpected end of data"

/-- The message of a byte fault: one byte is named, several are only placed. -/
def Text.Utf8Fault.message (fault : Text.Utf8Fault) : String :=
  let span :=
    if fault.length = 1 then
      "byte 0x" ++ String.ofList (Text.hexDigits 2 fault.byte) ++ " in position " ++
        toString fault.position
    else
      "bytes in position " ++ toString fault.position ++ "-" ++
        toString (fault.position + fault.length - 1)
  "'utf-8' codec can't decode " ++ span ++ ": " ++ fault.reason.wording

/-- The message of lone halves: one is named, several are only placed. -/
def Text.UnpairedFault.message (fault : Text.UnpairedFault) : String :=
  let span :=
    if fault.length = 1 then
      "character '\\u" ++ String.ofList (Text.hexDigits 4 fault.first) ++ "' in position " ++
        toString fault.position
    else
      "characters in position " ++ toString fault.position ++ "-" ++
        toString (fault.position + fault.length - 1)
  "'utf-8' codec can't encode " ++ span ++ ": surrogates not allowed"

def Failure.className : Failure → String
  | .argument mistake => mistake.className
  | .keyKind _ | .valueKind _ | .joinKind _ _ | .fragmentKind _ | .notIterable _
  | .unhashable _ | .keywordKind | .cannotJoin
  | .tooManyArguments _ _ _ | .repeatedArgument _ _ | .repeatedName _ _ | .missingArguments _ _
  | .unexpectedArgument _ _ | .noNamedArguments _ | .intKind _ | .floatKind _
  | .incomparable _ _ | .noLength _ | .unsupported _ _ _ | .cannotConcatenate _
  | .cannotConcatenateBytes | .notSliceable | .cannotRepeat | .notSubscriptable _
  | .noStatistics _ | .noPath => "TypeError"
  | .notFinite | .tooLongToWrite | .tooLongToRead _ | .fragmentSyntax _ | .intLiteral _
  | .floatLiteral _ | .nanToInt | .nullByte => "ValueError"
  | .noSuchField _ _ => "AttributeError"
  | .infinityToInt | .intToFloat | .limitTooLarge => "OverflowError"
  | .envelopeBuilt | .alreadyStarted => "RuntimeError"
  | .timeout => "TimeoutError"
  | .cancelled => "CancelledError"
  | .invalidState => "InvalidStateError"
  | .notUtf8 _ => "UnicodeDecodeError"
  | .unpaired _ => "UnicodeEncodeError"
  | .strayResult => "SystemError"
  | .file refusal _ _ => refusal.className
  | .exit _ => "SystemExit"

/-- The wording of a failure, apart from a name that the caller chose. -/
def Failure.wording : Failure → String
  | .keyKind kind => "keys must be str, int, float, bool or None, not " ++ kind
  | .valueKind kind => "Object of type " ++ kind ++ " is not JSON serializable"
  | .notFinite => "Out of range float values are not JSON compliant"
  | .tooLongToWrite =>
    "Exceeds the limit (4300 digits) for integer string conversion; use " ++
      "sys.set_int_max_str_digits() to increase the limit"
  | .tooLongToRead digits =>
    "Exceeds the limit (4300 digits) for integer string conversion: value has " ++
      toString digits ++ " digits; use sys.set_int_max_str_digits() to increase the limit"
  | .joinKind index kind =>
    "sequence item " ++ toString index ++ ": expected str instance, " ++ kind ++ " found"
  | .cannotJoin => "can only join an iterable"
  | .fragmentSyntax reason => "fragment is not valid JSON object content: " ++ reason
  | .fragmentKind kind => "fragment items must be str, got " ++ kind
  | .notIterable kind => "'" ++ kind ++ "' object is not iterable"
  | .unhashable kind => "unhashable type: '" ++ kind ++ "'"
  | .keywordKind => "keywords must be strings"
  | .tooManyArguments owner takes given =>
    owner ++ " takes " ++ takes ++ " but " ++ toString given ++ " were given"
  | .repeatedArgument owner name =>
    owner ++ " got multiple values for argument '" ++ name ++ "'"
  | .repeatedName owner name =>
    owner ++ " got multiple values for keyword argument '" ++ name ++ "'"
  | .missingArguments owner names =>
    owner ++ " missing " ++ toString names.length ++ " required positional argument" ++
      (if names.length = 1 then "" else "s") ++ ": " ++
      joinNames (names.map fun n => "'" ++ n ++ "'")
  | .unexpectedArgument owner _ => owner ++ " got an unexpected keyword argument"
  | .argument mistake => mistake.wording
  | .noNamedArguments owner => owner ++ "() takes no keyword arguments"
  | .noSuchField kind field => "'" ++ kind ++ "' object has no attribute '" ++ field ++ "'"
  | .intLiteral shown =>
    "invalid literal for int() with base 10: " ++ String.ofList (shown.toList.take 200)
  | .floatLiteral shown => "could not convert string to float: " ++ shown
  | .intKind kind =>
    "int() argument must be a string, a bytes-like object or a real number, not '" ++ kind ++ "'"
  | .floatKind kind => "float() argument must be a string or a real number, not '" ++ kind ++ "'"
  | .nanToInt => "cannot convert float NaN to integer"
  | .infinityToInt => "cannot convert float infinity to integer"
  | .intToFloat => "int too large to convert to float"
  | .limitTooLarge => "Python int too large to convert to C ssize_t"
  | .incomparable left right =>
    "'>' not supported between instances of '" ++ left ++ "' and '" ++ right ++ "'"
  | .noLength kind => "object of type '" ++ kind ++ "' has no len()"
  | .unsupported operation left right =>
    "unsupported operand type(s) for " ++ operation ++ ": '" ++ left ++ "' and '" ++ right ++ "'"
  | .cannotConcatenate kind =>
    "can only concatenate " ++ kind ++ " (not \"int\") to " ++ kind
  | .cannotConcatenateBytes => "can't concat int to bytes"
  | .notSliceable => "slice indices must be integers or None or have an __index__ method"
  | .cannotRepeat => "can't multiply sequence by non-int of type 'float'"
  | .notSubscriptable kind => "'" ++ kind ++ "' object is not subscriptable"
  | .envelopeBuilt => "envelope already built"
  | .alreadyStarted => "subsystems must be registered before start()"
  | .noStatistics shown => "provider " ++ shown ++ " has no callable memory_stats()"
  | .timeout => ""
  | .cancelled => ""
  | .invalidState => ""
  | .notUtf8 fault => fault.message
  | .unpaired fault => fault.message
  | .file refusal path target =>
    "[Errno " ++ toString refusal.number ++ "] " ++ refusal.wording ++ ": " ++ path ++
      (match target with
        | none => ""
        | some t => " -> " ++ t)
  | .nullByte => "embedded null byte"
  | .strayResult => "<class 'str'> returned a result with an exception set"
  | .noPath => "stat: path should be string, bytes, os.PathLike or integer, not list"
  | .exit code => toString code

def Failure.message (failure : Failure) : List CodePoint :=
  match failure with
  | .unexpectedArgument _ name =>
    Text.points (failure.wording ++ " '") ++ name ++ Text.points "'"
  | .argument mistake => mistake.message
  | _ => Text.points failure.wording

end UsageReport
