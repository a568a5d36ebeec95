/-
Redaction of secrets.  Whatever is stored under a sensitive key, at any depth, is replaced by
one fixed text; the rest keeps its shape, tuples turning into lists.  Keys are told apart by
their texts, so a key that has none makes it fail.
-/
import UsageReport.Value.Written

namespace UsageReport

open Text (CodePoint)

/-- The keys whose values are secrets, in lower case. -/
def sensitiveKeys : List String :=
  ["passphrase", "password", "secret", "token", "api_key", "key", "session_key", "auth_key",
    "authorization"]

/-- What stands in place of a secret. -/
def redacted : Value := .text "***REDACTED***"

/-- A character in lower case, as far as the lower case lies in ASCII: the letters A to Z and
the Kelvin sign.  The lower case of any other character holds one outside ASCII. -/
def lowerAscii (c : Char) : Char :=
  if 'A' ≤ c ∧ c ≤ 'Z' then Char.ofNat (c.toNat + 32)
  else if c.toNat = 0x212A then 'k'
  else c

/-- Whether a text marks a secret: in lower case it is one of the sensitive keys.  These are all
ASCII, so only lower cases in ASCII matter. -/
def isSensitiveText (points : List CodePoint) : Bool :=
  sensitiveKeys.any fun key => Text.points key == points.map fun p => match p with
    | .char c => .char (lowerAscii c)
    | half => half

/-- Whether a key marks a secret.  It is looked at as a text, which some keys do not have. -/
def isSensitive (key : Value) : Except Failure Bool := key.written.map isSensitiveText

mutual

/-- A value without its secrets, if every key outside of them can be looked at. -/
def redact : Value → Except Failure Value
  | .dict pairs => do return .dict (← redactPairs pairs)
  | .list xs => do return .list (← redactAll xs)
  | .tuple xs => do return .list (← redactAll xs)
  | v => .ok v

def redactAll : List Value → Except Failure (List Value)
  | [] => .ok []
  | x :: xs => do
    let y ← redact x
    let ys ← redactAll xs
    return y :: ys

def redactPairs : List (Value × Value) → Except Failure (List (Value × Value))
  | [] => .ok []
  | (k, v) :: rest => do
    let shown ← if ← isSensitive k then pure redacted else redact v
    let others ← redactPairs rest
    return (k, shown) :: others

end

end UsageReport
