/-
Values that are written and read back.  A notation with nothing but space around its commas and
colons loses what JSON cannot tell apart: tuples turn into lists, and keys into their texts, of
which the last one counts.  The rest comes back, floating-point numbers if their texts do.
-/
import Mathlib.Data.List.Forall2
import UsageReport.Proofs.Json.Members
import UsageReport.Proofs.Json.WrittenNumber
import UsageReport.Proofs.Json.WrittenText
import UsageReport.Proofs.Outcome

namespace UsageReport

open Text (CodePoint)

/-- The text that a dictionary key is written as. -/
def Value.keyPoints : Value → List CodePoint
  | .text s => Text.points s
  | .broken points => points
  | .null => Text.points "null"
  | .bool b => (Json.writeBool b).map .char
  | .int n => Text.points (toString n)
  | .float x => (Json.numberLayout.ofParts (Decimal.Parts.ofFloat x)).map .char
  | _ => []

mutual

/-- A value as it comes back from JSON. -/
def Value.coerced : Value → Value
  | .broken points => Value.ofPoints points
  | .list xs => .list (Value.coercedAll xs)
  | .tuple xs => .list (Value.coercedAll xs)
  | .dict pairs =>
    .dict ((Json.lastWins (Value.coercedPairs pairs)).map fun m => (Value.ofPoints m.1, m.2))
  | v => v

def Value.coercedAll : List Value → List Value
  | [] => []
  | x :: xs => Value.coerced x :: Value.coercedAll xs

def Value.coercedPairs : List (Value × Value) → List (List CodePoint × Value)
  | [] => []
  | (k, v) :: rest => (k.keyPoints, Value.coerced v) :: Value.coercedPairs rest

end

mutual

/-- The floating-point numbers in a value, keys apart. -/
def Value.floats : Value → List Float
  | .float x => [x]
  | .list xs => Value.floatsAll xs
  | .tuple xs => Value.floatsAll xs
  | .dict pairs => Value.floatsPairs pairs
  | _ => []

def Value.floatsAll : List Value → List Float
  | [] => []
  | x :: xs => Value.floats x ++ Value.floatsAll xs

def Value.floatsPairs : List (Value × Value) → List Float
  | [] => []
  | (_, v) :: rest => Value.floats v ++ Value.floatsPairs rest

end

theorem Value.coercedPairs_eq_map (pairs : List (Value × Value)) :
    Value.coercedPairs pairs = pairs.map fun p => (p.1.keyPoints, p.2.coerced) := by
  induction pairs with
  | nil => rfl
  | cons pair rest ih => rw [Value.coercedPairs, ih, List.map_cons]

theorem Value.floatsPairs_eq_flatMap (pairs : List (Value × Value)) :
    Value.floatsPairs pairs = pairs.flatMap fun p => p.2.floats := by
  induction pairs with
  | nil => rfl
  | cons pair rest ih => rw [Value.floatsPairs, ih, List.flatMap_cons]

/-- Named values come back one by one, if no name stands twice. -/
theorem Value.coerced_ofFields {fields : Fields} (h : (fields.map (·.1)).Nodup) :
    (Value.ofFields fields).coerced = .ofFields (fields.map fun p => (p.1, p.2.coerced)) := by
  have hnodup := h.map Text.points_injective
  rw [Value.ofFields, Value.coerced, Value.coercedPairs_eq_map, Json.lastWins_of_nodup]
  · simp [Value.ofFields, Value.keyPoints, Value.ofPoints_points, Function.comp_def]
  · simpa [Value.keyPoints, Function.comp_def] using hnodup

theorem Value.floats_ofFields (fields : Fields) :
    (Value.ofFields fields).floats = fields.flatMap fun p => p.2.floats := by
  rw [Value.ofFields, Value.floats, Value.floatsPairs_eq_flatMap, List.flatMap_map]

/-- A text comes back as it is, whole or not. -/
theorem Value.coerced_ofPoints (points : List CodePoint) :
    (Value.ofPoints points).coerced = .ofPoints points := by
  cases h : Text.characters? points with
  | some cs => simp only [Value.ofPoints, h, Value.coerced]
  | none => simp only [Value.ofPoints, h, Value.coerced]

theorem Value.floats_ofPoints (points : List CodePoint) : (Value.ofPoints points).floats = [] := by
  cases h : Text.characters? points with
  | some cs => simp only [Value.ofPoints, h, Value.floats]
  | none => simp only [Value.ofPoints, h, Value.floats]

namespace Json

/-- A notation that keeps texts as they are, with only space around its separators. -/
structure Style.Spaced (style : Style) : Prop where
  plain : style.ascii = false
  separator : ∃ gap : List Char, Blank (gap.map .char) ∧ style.separator = ',' :: gap
  afterName : ∃ gap : List Char, Blank (gap.map .char) ∧ style.afterName = ':' :: gap

theorem Style.line_spaced : Style.line.Spaced where
  plain := rfl
  separator := ⟨[' '], by simp [Blank, isSpace], rfl⟩
  afterName := ⟨[' '], by simp [Blank, isSpace], rfl⟩

section Parts

variable {style : Style} {gap tail : List Char}

theorem blank_newLine (width level : Nat) : Blank ((newLine width level).map .char) := by
  intro p hp
  obtain ⟨c, hc, rfl⟩ := List.mem_map.mp hp
  rcases List.mem_cons.mp hc with rfl | hc
  · rfl
  · rw [List.eq_of_mem_replicate hc]
    rfl

/-- Parts stand between the opening and the closing character with commas and space. -/
theorem Style.Spaced.enclose_eq (h : style.Spaced) (level : Nat) (opening closing : Char)
    {parts : List (List Char)} (hparts : parts ≠ []) :
    ∃ lead gap tail : List Char, Blank (lead.map .char) ∧ Blank (gap.map .char) ∧
      Blank (tail.map .char) ∧ style.enclose level opening closing parts =
        opening :: lead ++ ((',' :: gap).intercalate parts ++ tail ++ [closing]) := by
  obtain ⟨gap, hgap, hseparator⟩ := h.separator
  have hsome : parts.isEmpty = false := by simpa using hparts
  cases hindent : style.indent with
  | none =>
      refine ⟨[], gap, [], blank_nil, hgap, blank_nil, ?_⟩
      simp [Style.enclose, hsome, hindent, hseparator]
  | some width =>
      refine ⟨newLine width level, newLine width level, newLine width (level - 1),
        blank_newLine _ _, blank_newLine _ _, blank_newLine _ _, ?_⟩
      simp [Style.enclose, hsome, hindent]

theorem spellsElements_parts (hgap : Blank (gap.map .char)) (htail : Blank (tail.map .char))
    {ds : List Document} {parts : List (List Char)} (hne : parts ≠ [])
    (h : List.Forall₂ (fun d part => Spells d (part.map .char)) ds parts) :
    SpellsElements ds (((',' :: gap).intercalate parts ++ tail ++ [']']).map .char) := by
  induction h with
  | nil => exact absurd rfl hne
  | cons hfirst hrest ih =>
      cases hrest with
      | nil =>
          have hlast := SpellsElements.last hfirst htail
          simpa using hlast
      | cons hsecond hmore =>
          have hcons := SpellsElements.cons hfirst blank_nil hgap (ih (List.cons_ne_nil _ _))
          simpa [List.intercalate_cons_cons] using hcons

/-- The part spells a member: its name in quotes, a colon and its document. -/
def SpellsMember (m : List CodePoint × Document) (part : List Char) : Prop :=
  ∃ nameText gap value, part.map .char = .char '"' :: nameText ++ .char ':' :: gap ++ value ∧
    SpellsText m.1 nameText ∧ Blank gap ∧ Spells m.2 value

theorem spellsMembers_parts (hgap : Blank (gap.map .char)) (htail : Blank (tail.map .char))
    {members : List (List CodePoint × Document)} {parts : List (List Char)} (hne : parts ≠ [])
    (h : List.Forall₂ SpellsMember members parts) :
    SpellsMembers members
      (((',' :: gap).intercalate parts ++ tail ++ ['\x7d']).map .char) := by
  induction h with
  | nil => exact absurd rfl hne
  | cons hfirst hrest ih =>
      obtain ⟨nameText, space, value, hpart, hname, hspace, hvalue⟩ := hfirst
      cases hrest with
      | nil =>
          have hlast := SpellsMembers.last hname blank_nil hspace hvalue htail
          simpa [hpart] using hlast
      | cons hsecond hmore =>
          have hcons := SpellsMembers.cons hname blank_nil hspace hvalue blank_nil hgap
            (ih (List.cons_ne_nil _ _))
          simpa [List.intercalate_cons_cons, hpart] using hcons

theorem spells_enclose_array (hstyle : style.Spaced) (level : Nat) {ds : List Document}
    {parts : List (List Char)}
    (h : List.Forall₂ (fun d part => Spells d (part.map .char)) ds parts) :
    Spells (.array ds) ((style.enclose level '[' ']' parts).map .char) := by
  by_cases hne : parts = []
  · subst hne
    cases h
    exact Spells.emptyArray blank_nil
  · obtain ⟨lead, gap, tail, hlead, hgap, htail, henclose⟩ := hstyle.enclose_eq level '[' ']' hne
    rw [henclose, List.map_append]
    exact Spells.array hlead (spellsElements_parts hgap htail hne h)

theorem spells_enclose_object (hstyle : style.Spaced) (level : Nat)
    {members : List (List CodePoint × Document)} {parts : List (List Char)}
    (h : List.Forall₂ SpellsMember members parts) :
    Spells (.object members) ((style.enclose level '\x7b' '\x7d' parts).map .char) := by
  by_cases hne : parts = []
  · subst hne
    cases h
    exact Spells.emptyObject blank_nil
  · obtain ⟨lead, gap, tail, hlead, hgap, htail, henclose⟩ :=
      hstyle.enclose_eq level '\x7b' '\x7d' hne
    rw [henclose, List.map_append]
    exact Spells.object hlead (spellsMembers_parts hgap htail hne h)

end Parts

/-! ### Keys -/

theorem writeInt_eq_ok {n : Int} {cs : List Char} (h : writeInt n = .ok cs) :
    cs = (toString n).toList := by
  simp only [writeInt] at h
  by_cases hlimit : digitLimit < (Decimal.digitChars n.natAbs).length
  · rw [if_pos hlimit] at h
    cases h
  rw [if_neg hlimit] at h
  cases h
  have hnat (m : Nat) : (toString m).toList = Decimal.digitChars m := by
    rw [show toString m = m.repr from rfl, Nat.repr_eq_ofList_toDigits, String.toList_ofList]
    rfl
  cases n with
  | ofNat m => exact (hnat m).symm
  | negSucc m =>
      have hneg : toString (Int.negSucc m) = "-" ++ toString (m + 1) := rfl
      rw [hneg, String.toList_append, hnat, if_pos (Int.negSucc_lt_zero m)]
      rfl

/-- A written key is its text in quotes. -/
theorem Style.name_eq_ok {style : Style} (hstyle : style.ascii = false) {key : Value}
    {cs : List Char} (h : style.name key = .ok cs) :
    ∃ chars : List Char, key.keyPoints = chars.map .char ∧ cs = writeText false chars := by
  cases key with
  | text s =>
      cases h
      exact ⟨s.toList, rfl, by rw [hstyle]⟩
  | broken points =>
      rw [Style.name, hstyle] at h
      exact writeBroken_eq_ok h
  | null =>
      cases h
      exact ⟨_, rfl, by rw [hstyle]⟩
  | bool b =>
      cases h
      exact ⟨_, rfl, by rw [hstyle]⟩
  | int n =>
      obtain ⟨digits, hdigits, rfl⟩ := exists_of_map_eq_ok h
      exact ⟨digits, by rw [writeInt_eq_ok hdigits]; rfl, by rw [hstyle]⟩
  | float x =>
      obtain ⟨digits, hdigits, rfl⟩ := exists_of_map_eq_ok h
      exact ⟨digits, by rw [writeFloat_eq_ok hdigits]; rfl, by rw [hstyle]⟩
  | bytes | list | tuple | set | dict => cases h

/-! ### Values -/

mutual

/-- What is written for a value spells a document that stands for the value as it comes back. -/
theorem exists_spells_write {style : Style} (hstyle : style.Spaced) {level : Nat} (v : Value)
    {cs : List Char} (h : style.write level v = .ok cs)
    (hfloats : ∀ x ∈ v.floats, FloatSurvives x) :
    ∃ d, Spells d (cs.map .char) ∧ d.toValue = v.coerced := by
  cases v with
  | null =>
      cases h
      exact ⟨.null, Spells.word (w := (Text.points "null", .null)) (by simp [words]), rfl⟩
  | bool b =>
      cases h
      cases b with
      | true =>
          exact ⟨.bool true, Spells.word (w := (Text.points "true", .bool true)) (by simp [words]),
            rfl⟩
      | false =>
          exact ⟨.bool false, Spells.word (w := (Text.points "false", .bool false))
            (by simp [words]), rfl⟩
  | int n => exact ⟨.int n, spells_writeInt h, rfl⟩
  | float x => exact ⟨.float x, style.spells_writeFloat h (hfloats x List.mem_cons_self), rfl⟩
  | text s =>
      cases h
      obtain ⟨piece, hpiece, hspells⟩ := writeText_eq style.ascii s.toList
      exact ⟨.text (Text.points s), hpiece ▸ Spells.text hspells, Value.ofPoints_points s⟩
  | broken points =>
      rw [Style.write, hstyle.plain] at h
      obtain ⟨chars, rfl, rfl⟩ := writeBroken_eq_ok h
      obtain ⟨piece, hpiece, hspells⟩ := writeText_eq false chars
      exact ⟨_, hpiece ▸ Spells.text hspells, rfl⟩
  | bytes | set => cases h
  | list xs | tuple xs =>
      obtain ⟨parts, hparts, hcs⟩ := exists_of_bind_eq_ok h
      cases hcs
      obtain ⟨ds, hspells, hvalues⟩ := exists_spells_writeAll hstyle xs hparts hfloats
      refine ⟨.array ds, spells_enclose_array hstyle _ hspells, ?_⟩
      rw [Document.toValue, hvalues, Value.coerced]
  | dict pairs =>
      obtain ⟨parts, hparts, hcs⟩ := exists_of_bind_eq_ok h
      cases hcs
      obtain ⟨members, hspells, hmembers⟩ := exists_spells_writePairs hstyle pairs hparts hfloats
      refine ⟨.object members, spells_enclose_object hstyle _ hspells, ?_⟩
      rw [Document.toValue, hmembers, Value.coerced]

theorem exists_spells_writeAll {style : Style} (hstyle : style.Spaced) {level : Nat}
    (xs : List Value) {parts : List (List Char)} (h : style.writeAll level xs = .ok parts)
    (hfloats : ∀ x ∈ Value.floatsAll xs, FloatSurvives x) :
    ∃ ds, List.Forall₂ (fun d part => Spells d (part.map .char)) ds parts ∧
      Document.toValues ds = Value.coercedAll xs := by
  cases xs with
  | nil =>
      cases h
      exact ⟨[], .nil, rfl⟩
  | cons x xs =>
      obtain ⟨part, hpart, h⟩ := exists_of_bind_eq_ok h
      obtain ⟨rest, hrest, h⟩ := exists_of_bind_eq_ok h
      cases h
      rw [Value.floatsAll, List.forall_mem_append] at hfloats
      obtain ⟨d, hd, hvalue⟩ := exists_spells_write hstyle x hpart hfloats.1
      obtain ⟨ds, hds, hvalues⟩ := exists_spells_writeAll hstyle xs hrest hfloats.2
      refine ⟨d :: ds, .cons hd hds, ?_⟩
      rw [Document.toValues, hvalue, hvalues, Value.coercedAll]

theorem exists_spells_writePairs {style : Style} (hstyle : style.Spaced) {level : Nat}
    (pairs : List (Value × Value)) {parts : List (List Char)}
    (h : style.writePairs level pairs = .ok parts)
    (hfloats : ∀ x ∈ Value.floatsPairs pairs, FloatSurvives x) :
    ∃ members, List.Forall₂ SpellsMember members parts ∧
      Document.toMembers members = Value.coercedPairs pairs := by
  cases pairs with
  | nil =>
      cases h
      exact ⟨[], .nil, rfl⟩
  | cons pair pairs =>
      obtain ⟨k, v⟩ := pair
      obtain ⟨name, hname, h⟩ := exists_of_bind_eq_ok h
      obtain ⟨value, hvalue, h⟩ := exists_of_bind_eq_ok h
      obtain ⟨rest, hrest, h⟩ := exists_of_bind_eq_ok h
      cases h
      rw [Value.floatsPairs, List.forall_mem_append] at hfloats
      obtain ⟨chars, hkey, rfl⟩ := Style.name_eq_ok hstyle.plain hname
      obtain ⟨nameText, hnameText, hspells⟩ := writeText_eq false chars
      obtain ⟨gap, hgap, hafter⟩ := hstyle.afterName
      obtain ⟨d, hd, hd'⟩ := exists_spells_write hstyle v hvalue hfloats.1
      obtain ⟨members, hmembers, hvalues⟩ := exists_spells_writePairs hstyle pairs hrest hfloats.2
      refine ⟨(k.keyPoints, d) :: members, .cons ?_ hmembers, ?_⟩
      · refine ⟨nameText, gap.map .char, value.map .char, ?_, hkey ▸ hspells, hgap, hd⟩
        simp [hnameText, hafter]
      · rw [Document.toMembers, hd', hvalues, Value.coercedPairs]

end

/-- What stands in a written dictionary can be written. -/
theorem Style.exists_write_of_mem {style : Style} {level : Nat} {pairs : List (Value × Value)}
    {parts : List (List Char)} (h : style.writePairs level pairs = .ok parts) {p : Value × Value}
    (hp : p ∈ pairs) : ∃ cs, style.write level p.2 = .ok cs := by
  induction pairs generalizing parts with
  | nil => cases hp
  | cons first rest ih =>
      obtain ⟨name, -, h⟩ := exists_of_bind_eq_ok h
      obtain ⟨cs, hvalue, h⟩ := exists_of_bind_eq_ok h
      obtain ⟨others, hothers, -⟩ := exists_of_bind_eq_ok h
      rcases List.mem_cons.mp hp with rfl | hp
      · exact ⟨cs, hvalue⟩
      · exact ih hothers hp

/-- Where texts are written as they are, a text that is written holds no lone halves. -/
theorem Style.exists_text_of_write {style : Style} (hplain : style.ascii = false) {level : Nat}
    {points : List CodePoint} {cs : List Char}
    (h : style.write level (.ofPoints points) = .ok cs) :
    ∃ s, Value.ofPoints points = .text s := by
  cases hpoints : Text.characters? points with
  | some chars => exact ⟨String.ofList chars, by simp only [Value.ofPoints, hpoints]⟩
  | none =>
      have hbroken : Value.ofPoints points = .broken points := by
        simp only [Value.ofPoints, hpoints]
      rw [hbroken, Style.write, hplain] at h
      obtain ⟨chars, rfl, -⟩ := writeBroken_eq_ok h
      rw [Text.characters?_map_char] at hpoints
      cases hpoints

/-- What is written for a value is read back as the value, up to what JSON cannot tell apart. -/
theorem read_text {style : Style} (hstyle : style.Spaced) {v : Value} {s : String}
    (h : style.text v = .ok s) (hfloats : ∀ x ∈ v.floats, FloatSurvives x) :
    ∃ d, read (Text.points s) = .ok d ∧ d.toValue = v.coerced := by
  obtain ⟨cs, hcs, rfl⟩ := exists_of_map_eq_ok h
  obtain ⟨d, hd, hvalue⟩ := exists_spells_write hstyle v hcs hfloats
  refine ⟨d, read_eq_ok_iff.mpr ⟨[], _, [], ?_, blank_nil, blank_nil, hd⟩, hvalue⟩
  simp [Text.points]

end Json

end UsageReport
