/-
Texts as code points.  A text that was spelled with escapes may hold half of a surrogate pair
alone.  No character stands for such a half and it has no UTF-8 form, so a text that holds one
can be kept and compared, but not written.
-/

namespace UsageReport.Text

/-- A code point: a character, or half of a surrogate pair that stands alone. -/
inductive CodePoint
  | char (c : Char)
  | surrogate (n : Nat)
  deriving DecidableEq, Repr, Inhabited

def CodePoint.number : CodePoint → Nat
  | .char c => c.toNat
  | .surrogate n => n

def CodePoint.isHalf : CodePoint → Bool
  | .char _ => false
  | .surrogate _ => true

/-- The character of a code point, if it is one. -/
def CodePoint.char? : CodePoint → Option Char
  | .char c => some c
  | .surrogate _ => none

/-- The place of a code point in the order of texts, which goes by numbers.  A half comes right
after the character of its number, if there were one. -/
def CodePoint.rank (p : CodePoint) : Nat := 2 * p.number + if p.isHalf then 1 else 0

/-- The order of texts, as in a dictionary: at the first difference, or by length. -/
def atMost : List CodePoint → List CodePoint → Bool
  | [], _ => true
  | _ :: _, [] => false
  | p :: ps, q :: qs => if p = q then atMost ps qs else p.rank < q.rank

/-- The code points of a text that is spelled out. -/
def points (s : String) : List CodePoint := s.toList.map .char

/-- The characters of a text that holds no lone half. -/
def characters? : List CodePoint → Option (List Char)
  | [] => some []
  | .char c :: rest => (characters? rest).map (c :: ·)
  | .surrogate _ :: _ => none

/-- The characters of a text, with the replacement character for every lone half. -/
def legible (points : List CodePoint) : List Char :=
  points.map fun p => match p with
    | .char c => c
    | .surrogate _ => '\uFFFD'

/-- The first halves of a text that cannot be written: where they start, how many stand
together, and the first of them. -/
structure UnpairedFault where
  position : Nat
  length : Nat
  first : Nat
  deriving DecidableEq, Repr

/-- The first halves of a text that cannot be written, apart from those let through; `position`
counts the code points before. -/
def unpairedFrom (passes : Nat → Bool) (position : Nat) : List CodePoint → Option UnpairedFault
  | [] => none
  | .char _ :: rest => unpairedFrom passes (position + 1) rest
  | .surrogate n :: rest =>
    if passes n then unpairedFrom passes (position + 1) rest
    else some ⟨position, (rest.takeWhile CodePoint.isHalf).length + 1, n⟩

/-- The first lone halves of a text. -/
def unpaired? (points : List CodePoint) : Option UnpairedFault :=
  unpairedFrom (fun _ => false) 0 points

/-- Whether half of a pair stands for a byte outside ASCII, as it does in paths. -/
def isByteHalf (n : Nat) : Bool := 0xDC80 ≤ n && n ≤ 0xDCFF

/-- The first halves of a path that stand for no byte. -/
def unpairedInPath? (points : List CodePoint) : Option UnpairedFault :=
  unpairedFrom isByteHalf 0 points

/-- A text of characters alone lacks nothing. -/
theorem characters?_map_char (cs : List Char) : characters? (cs.map .char) = some cs := by
  induction cs with
  | nil => rfl
  | cons c cs ih => simp [characters?, ih]

/-- A text that lacks nothing consists of its characters. -/
theorem eq_map_of_characters? {points : List CodePoint} {cs : List Char}
    (h : characters? points = some cs) : points = cs.map .char := by
  induction points generalizing cs with
  | nil =>
    cases h
    rfl
  | cons p rest ih =>
    cases p with
    | surrogate n => cases h
    | char c =>
      obtain ⟨cs', hcs', rfl⟩ := Option.map_eq_some_iff.mp h
      rw [List.map_cons, ih hcs']

theorem points_injective : Function.Injective points := by
  intro s t h
  exact String.toList_inj.mp ((List.map_inj_right fun _ _ => CodePoint.char.inj).mp h)

end UsageReport.Text
