/-
The grammar of JSON texts.  It tells which texts are documents, whatever they mean.  The words
are a parameter: the standard has three of them, and the reader takes three more for numbers that
are not finite.  Whole numbers are bounded as the reader bounds them.
-/
import UsageReport.Json.Reader

namespace UsageReport.Json

open Text (CodePoint)

/-- The words of the standard. -/
def standardWords : List (List CodePoint) :=
  [Text.points "null", Text.points "true", Text.points "false"]

/-- The words that are read, those for what is no finite number included. -/
def extendedWords : List (List CodePoint) :=
  standardWords ++ [Text.points "NaN", Text.points "Infinity", Text.points "-Infinity"]

/-- Only characters that may stand between the parts of a document. -/
def Blank (cs : List CodePoint) : Prop := ∀ p ∈ cs, isSpace p = true

/-! ### Texts and numbers -/

/-- The rest of a text after its opening quote, up to the closing one. -/
inductive IsQuoted : List CodePoint → Prop
  | close : IsQuoted [.char '"']
  | plain {p : CodePoint} {rest : List CodePoint} (hquote : p ≠ .char '"')
      (hslash : p ≠ .char '\\') (hcontrol : isControl p = false) (h : IsQuoted rest) :
      IsQuoted (p :: rest)
  | escape {e : Char} {rest : List CodePoint}
      (he : e ∈ ['"', '\\', '/', 'b', 'f', 'n', 'r', 't']) (h : IsQuoted rest) :
      IsQuoted (.char '\\' :: .char e :: rest)
  | unit {a b c d : CodePoint} {rest : List CodePoint}
      (hdigits : ∀ p ∈ [a, b, c, d], (hexDigit? p).isSome = true) (h : IsQuoted rest) :
      IsQuoted (.char '\\' :: .char 'u' :: a :: b :: c :: d :: rest)

/-- One digit or more. -/
def IsDigits (ds : List Char) : Prop := ds ≠ [] ∧ ∀ c ∈ ds, c.isDigit = true

/-- The digits before the point: a zero alone, or digits that begin with another one. -/
inductive IsWhole : List Char → Prop
  | zero : IsWhole ['0']
  | digits {c : Char} {rest : List Char} (hc : c.isDigit = true) (hzero : c ≠ '0')
      (hrest : ∀ c ∈ rest, c.isDigit = true) : IsWhole (c :: rest)

inductive IsFraction : List Char → Prop
  | none : IsFraction []
  | some {ds : List Char} (h : IsDigits ds) : IsFraction ('.' :: ds)

inductive IsExponent : List Char → Prop
  | none : IsExponent []
  | some {mark : Char} {sign ds : List Char} (hmark : mark = 'e' ∨ mark = 'E')
      (hsign : sign ∈ [[], ['-'], ['+']]) (h : IsDigits ds) : IsExponent (mark :: sign ++ ds)

/-- A number; a whole one has no more digits than are read. -/
inductive IsNumber : List Char → Prop
  | parts {sign whole fraction exponent : List Char} (hsign : sign ∈ [[], ['-']])
      (hwhole : IsWhole whole) (hfraction : IsFraction fraction)
      (hexponent : IsExponent exponent)
      (hsize : fraction = [] → exponent = [] → whole.length ≤ digitLimit) :
      IsNumber (sign ++ whole ++ fraction ++ exponent)

/-! ### Documents -/

/-- What a piece of a text is: a document, or the rest of an array or object up to its closing
bracket. -/
inductive Part
  | document
  | elements
  | members

/-- The grammar with the words given. -/
inductive Derives (vocabulary : List (List CodePoint)) : Part → List CodePoint → Prop
  | word {w : List CodePoint} (h : w ∈ vocabulary) : Derives vocabulary .document w
  | number {cs : List Char} (h : IsNumber cs) : Derives vocabulary .document (cs.map .char)
  | text {piece : List CodePoint} (h : IsQuoted piece) :
      Derives vocabulary .document (.char '"' :: piece)
  | emptyArray {space : List CodePoint} (h : Blank space) :
      Derives vocabulary .document (.char '[' :: space ++ [.char ']'])
  | array {space piece : List CodePoint} (hspace : Blank space)
      (h : Derives vocabulary .elements piece) :
      Derives vocabulary .document (.char '[' :: space ++ piece)
  | emptyObject {space : List CodePoint} (h : Blank space) :
      Derives vocabulary .document (.char '\x7b' :: space ++ [.char '\x7d'])
  | object {space piece : List CodePoint} (hspace : Blank space)
      (h : Derives vocabulary .members piece) :
      Derives vocabulary .document (.char '\x7b' :: space ++ piece)
  | lastElement {value space : List CodePoint} (hvalue : Derives vocabulary .document value)
      (hspace : Blank space) : Derives vocabulary .elements (value ++ space ++ [.char ']'])
  | element {value space space' piece : List CodePoint}
      (hvalue : Derives vocabulary .document value) (hspace : Blank space) (hspace' : Blank space')
      (hrest : Derives vocabulary .elements piece) :
      Derives vocabulary .elements (value ++ space ++ .char ',' :: space' ++ piece)
  | lastMember {name space₁ space₂ value space₃ : List CodePoint} (hname : IsQuoted name)
      (hspace₁ : Blank space₁) (hspace₂ : Blank space₂)
      (hvalue : Derives vocabulary .document value) (hspace₃ : Blank space₃) :
      Derives vocabulary .members (.char '"' :: name ++ space₁ ++ .char ':' :: space₂ ++ value ++
        space₃ ++ [.char '\x7d'])
  | member {name space₁ space₂ value space₃ space₄ piece : List CodePoint}
      (hname : IsQuoted name) (hspace₁ : Blank space₁) (hspace₂ : Blank space₂)
      (hvalue : Derives vocabulary .document value) (hspace₃ : Blank space₃)
      (hspace₄ : Blank space₄) (hrest : Derives vocabulary .members piece) :
      Derives vocabulary .members (.char '"' :: name ++ space₁ ++ .char ':' :: space₂ ++ value ++
        space₃ ++ .char ',' :: space₄ ++ piece)

/-- A whole text: one document, with space around it. -/
def IsText (vocabulary : List (List CodePoint)) (cs : List CodePoint) : Prop :=
  ∃ before piece after, cs = before ++ piece ++ after ∧ Blank before ∧ Blank after ∧
    Derives vocabulary .document piece

end UsageReport.Json
