/-
Blank characters and the trimming of texts.  Blank means the Unicode property "white space"
together with the four information separators U+001C to U+001F; the zero-width space and the
byte order mark are no blanks.
-/
import UsageReport.Text.CodePoint

namespace UsageReport.Text

/-- Whether a character counts as white space. -/
def isBlank (c : Char) : Bool :=
  let n := c.toNat
  (9 ≤ n && n ≤ 13) || (28 ≤ n && n ≤ 32) || n == 0x85 || n == 0xA0 || n == 0x1680 ||
    (0x2000 ≤ n && n ≤ 0x200A) || n == 0x2028 || n == 0x2029 || n == 0x202F || n == 0x205F ||
    n == 0x3000

/-- Whether a code point counts as white space. -/
def isBlankPoint : CodePoint → Bool
  | .char c => isBlank c
  | .surrogate _ => false

/-- A list without its leading and trailing members that satisfy `blank`. -/
def trimBy {α : Type} (blank : α → Bool) (cs : List α) : List α :=
  ((cs.dropWhile blank).reverse.dropWhile blank).reverse

/-- A text without the blanks around it. -/
def strip (s : String) : String :=
  String.ofList (trimBy isBlank s.toList)

end UsageReport.Text
