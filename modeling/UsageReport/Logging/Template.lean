/-
Message templates.  A template fits its arguments if every conversion finds an argument that it
can write, and none is left over.  A dictionary that is the only argument is taken by names.
-/
import UsageReport.Logging.Conversion

namespace UsageReport

/-- The arguments that are left for a template. -/
inductive TemplateArguments
  /-- Arguments in order. -/
  | ordered (left : List Value)
  /-- Arguments by name, and the value that a conversion without a name takes, once. -/
  | named (pairs : Pairs) (single : Option Value)

namespace TemplateArguments

/-- The arguments of a message. -/
def of : List Value → TemplateArguments
  | [.dict pairs] =>
    if pairs.isEmpty then .ordered [.dict pairs] else .named pairs (some (.dict pairs))
  | values => .ordered values

def next? : TemplateArguments → Option (Value × TemplateArguments)
  | .ordered (v :: left) => some (v, .ordered left)
  | .named pairs (some v) => some (v, .named pairs none)
  | _ => none

/-- Makes the argument of a name the next one. -/
def select? (name : List Char) : TemplateArguments → Option TemplateArguments
  | .named pairs _ =>
    (pairs.get? (.text (String.ofList name))).map fun v => .named pairs (some v)
  | .ordered _ => none

/-- Whether nothing is left that had to be taken. -/
def isDone : TemplateArguments → Bool
  | .ordered left => left.isEmpty
  | .named _ _ => true

/-- The number of a width or a precision. -/
def extent? (given : TemplateArguments) : Extent → Option (Int × TemplateArguments)
  | .number n => some (n, given)
  | .next => do
    let (v, given) ← given.next?
    let n ← v.whole?
    if isWord n then some (n, given) else none

/-- Writes a conversion. -/
def convert? (c : Conversion) (given : TemplateArguments) :
    Option (List Char × TemplateArguments) := do
  let given ← match c.name with
    | none => some given
    | some name => given.select? name
  let (width, given) ← given.extent? (c.width.getD (.number 0))
  let (precision, given) ← match c.precision with
    | none => some (none, given)
    | some extent => (given.extent? extent).map fun r => (some r.1.toNat, r.2)
  let (v, given) ← given.next?
  let text ← Placement.text? ⟨c, width, precision⟩ v
  pure (text, given)

end TemplateArguments

/-- Fills the conversions of a template, if its arguments fit; `fuel` bounds its length. -/
def fill? : Nat → List Char → TemplateArguments → Option (List Char)
  | 0, _, _ => none
  | _ + 1, [], given => if given.isDone then some [] else none
  | fuel + 1, '%' :: '%' :: rest, given => (fill? fuel rest given).map ('%' :: ·)
  | fuel + 1, '%' :: rest, given => do
    let (conversion, rest) ← Conversion.read rest
    let (text, given) ← given.convert? conversion
    let tail ← fill? fuel rest given
    pure (text ++ tail)
  | fuel + 1, c :: rest, given => (fill? fuel rest given).map (c :: ·)

/-- The message of a template.  Without arguments it is the template as it stands. -/
def messageOf? (template : String) (arguments : List Value) : Option String :=
  if arguments.isEmpty then some template
  else (fill? (template.length + 1) template.toList (.of arguments)).map String.ofList

end UsageReport
