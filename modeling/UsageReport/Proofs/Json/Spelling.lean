/-
Documents as pieces of text.  What the reader takes off the input spells one document, and it
spells the same one wherever it stands, as long as no number runs on behind it.  The parts of
arrays and objects therefore can be read on their own, and a document can be put together from
pieces that were read apart.
-/
import Mathlib.Data.List.TakeWhile
import UsageReport.Proofs.Json.NumberGrammar
import UsageReport.Proofs.Json.TextSpelling

namespace UsageReport.Json

open Text (CodePoint)

/-- No number can run on into the text. -/
def Stops (cs : List CodePoint) : Prop := (spanNumeric cs).1 = []

/-- The piece spells the document wherever it stands before a text that stops numbers. -/
def Spells (d : Document) (piece : List CodePoint) : Prop :=
  ∀ fuel after, piece.length ≤ fuel → Stops after →
    readDocument fuel (piece ++ after) = .ok (d, after)

/-- The piece, closing bracket included, spells the elements of an array. -/
def SpellsElements (ds : List Document) (piece : List CodePoint) : Prop :=
  ∀ fuel after, piece.length ≤ fuel → readElements fuel (piece ++ after) = .ok (ds, after)

/-- The piece, closing brace included, spells the members of an object. -/
def SpellsMembers (members : List (List CodePoint × Document)) (piece : List CodePoint) : Prop :=
  ∀ fuel after, piece.length ≤ fuel → readMembers fuel (piece ++ after) = .ok (members, after)

/-! ### Space -/

theorem blank_nil : Blank [] := fun _ h => absurd h List.not_mem_nil

theorem skipSpace_blank_append {space : List CodePoint} (hspace : Blank space)
    (cs : List CodePoint) : skipSpace (space ++ cs) = skipSpace cs :=
  List.dropWhile_append_of_pos hspace

theorem skipSpace_cons {p : CodePoint} (hp : isSpace p = false) (cs : List CodePoint) :
    skipSpace (p :: cs) = p :: cs :=
  List.dropWhile_cons_of_neg (by simp [hp])

/-- The space that begins a text can be told from the rest. -/
theorem exists_blank_append (cs : List CodePoint) :
    ∃ space, Blank space ∧ cs = space ++ skipSpace cs :=
  ⟨cs.takeWhile isSpace, fun _ hp => List.mem_takeWhile_imp hp,
    List.takeWhile_append_dropWhile.symm⟩

theorem stops_blank {space : List CodePoint} (hspace : Blank space) : Stops space := by
  cases space with
  | nil => rfl
  | cons p rest =>
      have hp := hspace p List.mem_cons_self
      cases p with
      | surrogate n => rfl
      | char c =>
          have hc : isNumeric c = false := by
            simp only [isSpace, Bool.or_eq_true, beq_iff_eq] at hp
            rcases hp with ((rfl | rfl) | rfl) | rfl <;> rfl
          simp [Stops, spanNumeric, hc]

/-- A text that goes on with something else than a number, after some space. -/
theorem stops_of_skipSpace {cs rest : List CodePoint} {c : Char} (hc : isNumeric c = false)
    (h : skipSpace cs = .char c :: rest) : Stops cs := by
  obtain ⟨space, hspace, hcs⟩ := exists_blank_append cs
  cases space with
  | nil =>
      rw [hcs, h]
      simp [Stops, spanNumeric, hc]
  | cons p more =>
      have hp : Stops [p] := stops_blank fun q hq =>
        hspace q (List.mem_singleton.mp hq ▸ List.mem_cons_self)
      rw [hcs]
      cases p with
      | surrogate n => rfl
      | char c =>
          cases hn : isNumeric c with
          | true => simp [Stops, spanNumeric, hn] at hp
          | false => simp [Stops, spanNumeric, hn]

/-! ### What documents begin with -/

/-- Whether a document may begin with the code point. -/
def beginsDocument : CodePoint → Bool
  | .char c => c.isDigit || ['"', '\x7b', '[', '-', 'n', 't', 'f', 'N', 'I'].contains c
  | .surrogate _ => false

theorem isSpace_of_beginsDocument {p : CodePoint} (h : beginsDocument p = true) :
    isSpace p = false := by
  cases p with
  | surrogate n => rfl
  | char c =>
      by_contra hspace
      simp only [isSpace, Bool.not_eq_false, Bool.or_eq_true, beq_iff_eq] at hspace
      rcases hspace with ((rfl | rfl) | rfl) | rfl <;> simp [beginsDocument] at h

theorem readWord?_eq_some {cs rest : List CodePoint} {d : Document}
    (h : readWord? cs = some (d, rest)) : ∃ w ∈ words, cs = w.1 ++ rest ∧ d = w.2 := by
  obtain ⟨w, hfind, heq⟩ := Option.map_eq_some_iff.mp h
  cases heq
  have hprefix := List.find?_some hfind
  rw [List.isPrefixOf_iff_prefix] at hprefix
  refine ⟨w, List.mem_of_find?_eq_some hfind, ?_, rfl⟩
  obtain ⟨more, rfl⟩ := hprefix
  simp

theorem readWhole_head {cs : List Char} {answer : List Char × List Char}
    (h : readWhole cs = some answer) : ∃ c more, cs = c :: more ∧ c.isDigit = true := by
  unfold readWhole at h
  split at h
  · exact ⟨'0', _, rfl, rfl⟩
  · cases cs with
    | nil => simp [spanDigits] at h
    | cons c more =>
        refine ⟨c, more, rfl, ?_⟩
        by_contra hc
        simp [spanDigits, hc] at h

theorem readNumeral?_head {cs rest : List Char} {n : Numeral}
    (h : readNumeral? cs = some (n, rest)) :
    ∃ c more, c.isDigit = true ∧ (cs = c :: more ∨ cs = '-' :: c :: more) := by
  unfold readNumeral? at h
  split at h
  next negative unsigned hsign =>
    obtain ⟨answer, hwhole, -⟩ := Option.bind_eq_some_iff.mp h
    obtain ⟨c, more, rfl, hc⟩ := readWhole_head hwhole
    split at hsign
    · cases hsign
      exact ⟨c, more, hc, Or.inr rfl⟩
    · cases hsign
      exact ⟨c, more, hc, Or.inl rfl⟩

theorem spanNumeric_append (cs : List CodePoint) :
    cs = (spanNumeric cs).1.map .char ++ (spanNumeric cs).2 := by
  fun_induction spanNumeric cs with
  | case1 c rest hc ih => rw [List.map_cons, List.cons_append, ← ih]
  | case2 => rfl
  | case3 => rfl

theorem readNumber?_eq_some {cs rest : List CodePoint} {n : Numeral}
    (h : readNumber? cs = some (n, rest)) :
    ∃ left, readNumeral? (spanNumeric cs).1 = some (n, left) ∧
      rest = left.map .char ++ (spanNumeric cs).2 := by
  obtain ⟨⟨n', left⟩, hnumeral, heq⟩ := Option.map_eq_some_iff.mp h
  cases heq
  exact ⟨left, hnumeral, rfl⟩

theorem beginsDocument_of_readNumber? {cs rest : List CodePoint} {n : Numeral}
    (h : readNumber? cs = some (n, rest)) :
    ∃ p more, cs = p :: more ∧ beginsDocument p = true := by
  obtain ⟨left, hnumeral, -⟩ := readNumber?_eq_some h
  obtain ⟨c, more, hc, hhead | hhead⟩ := readNumeral?_head hnumeral
  · refine ⟨.char c, more.map .char ++ (spanNumeric cs).2, ?_, by simp [beginsDocument, hc]⟩
    rw [← List.cons_append, ← List.map_cons, ← hhead]
    exact spanNumeric_append cs
  · refine ⟨.char '-', (c :: more).map .char ++ (spanNumeric cs).2, ?_, rfl⟩
    rw [← List.cons_append, ← List.map_cons, ← hhead]
    exact spanNumeric_append cs

theorem beginsDocument_of_readDocument {fuel : Nat} {cs rest : List CodePoint} {d : Document}
    (h : readDocument fuel cs = .ok (d, rest)) :
    ∃ p more, cs = p :: more ∧ beginsDocument p = true := by
  cases fuel with
  | zero => simp [readDocument] at h
  | succ fuel =>
      unfold readDocument at h
      split at h
      · exact ⟨_, _, rfl, rfl⟩
      · exact ⟨_, _, rfl, rfl⟩
      · exact ⟨_, _, rfl, rfl⟩
      · split at h
        · next answer hword =>
          cases h
          obtain ⟨w, hw, rfl, -⟩ := readWord?_eq_some hword
          simp only [words, List.mem_cons, List.not_mem_nil, or_false] at hw
          rcases hw with rfl | rfl | rfl | rfl | rfl | rfl <;> exact ⟨_, _, rfl, rfl⟩
        · split at h
          · cases h
          · next hnumber => exact beginsDocument_of_readNumber? hnumber

theorem quote_of_readMembers {fuel : Nat} {cs rest : List CodePoint}
    {members : List (List CodePoint × Document)}
    (h : readMembers fuel cs = .ok (members, rest)) : ∃ more, cs = .char '"' :: more := by
  cases fuel with
  | zero => simp [readMembers] at h
  | succ fuel =>
      unfold readMembers at h
      split at h
      · exact ⟨_, rfl⟩
      · cases h

theorem beginsDocument_of_readElements {fuel : Nat} {cs rest : List CodePoint}
    {ds : List Document} (h : readElements fuel cs = .ok (ds, rest)) :
    ∃ p more, cs = p :: more ∧ beginsDocument p = true := by
  cases fuel with
  | zero => simp [readElements] at h
  | succ fuel =>
      unfold readElements at h
      split at h
      · cases h
      · next hfirst => exact beginsDocument_of_readDocument hfirst

theorem Spells.begins {d : Document} {piece : List CodePoint} (h : Spells d piece) :
    ∃ p more, piece = p :: more ∧ beginsDocument p = true := by
  have hread := h piece.length [] (Nat.le_refl _) rfl
  rw [List.append_nil] at hread
  exact beginsDocument_of_readDocument hread

theorem SpellsElements.begins {ds : List Document} {piece : List CodePoint}
    (h : SpellsElements ds piece) : ∃ p more, piece = p :: more ∧ beginsDocument p = true := by
  have hread := h piece.length [] (Nat.le_refl _)
  rw [List.append_nil] at hread
  exact beginsDocument_of_readElements hread

theorem SpellsMembers.begins {members : List (List CodePoint × Document)}
    {piece : List CodePoint} (h : SpellsMembers members piece) :
    ∃ more, piece = .char '"' :: more := by
  have hread := h piece.length [] (Nat.le_refl _)
  rw [List.append_nil] at hread
  exact quote_of_readMembers hread

theorem Spells.skipSpace_append {d : Document} {piece : List CodePoint} (h : Spells d piece)
    (after : List CodePoint) : skipSpace (piece ++ after) = piece ++ after := by
  obtain ⟨p, more, rfl, hp⟩ := h.begins
  exact skipSpace_cons (isSpace_of_beginsDocument hp) _

/-! ### Putting documents together -/

namespace Spells

variable {space piece : List CodePoint}

theorem text {s : List CodePoint} (h : SpellsText s piece) :
    Spells (.text s) (.char '"' :: piece) := by
  intro fuel after hfuel _
  obtain ⟨fuel, rfl⟩ := Nat.exists_eq_add_one.mpr (Nat.zero_lt_of_lt hfuel)
  have hlength : piece.length ≤ (piece ++ after).length + 1 := by
    simp only [List.length_append]
    omega
  have hread := h (.char '"' :: (piece ++ after)) _ [] after hlength
  simp [readDocument, hread, -List.length_append]

theorem emptyObject (hspace : Blank space) :
    Spells (.object []) (.char '\x7b' :: space ++ [.char '\x7d']) := by
  intro fuel after hfuel _
  obtain ⟨fuel, rfl⟩ := Nat.exists_eq_add_one.mpr (Nat.zero_lt_of_lt hfuel)
  have hskip : skipSpace (space ++ .char '\x7d' :: after) = .char '\x7d' :: after := by
    rw [skipSpace_blank_append hspace, skipSpace_cons rfl]
  simp [readDocument, hskip]

theorem object {members : List (List CodePoint × Document)} (hspace : Blank space)
    (h : SpellsMembers members piece) :
    Spells (.object members) (.char '\x7b' :: space ++ piece) := by
  intro fuel after hfuel _
  obtain ⟨fuel, rfl⟩ := Nat.exists_eq_add_one.mpr (Nat.zero_lt_of_lt hfuel)
  have hread := h fuel after (by
    simp only [List.cons_append, List.length_cons, List.length_append] at hfuel
    omega)
  obtain ⟨more, rfl⟩ := h.begins
  have hskip : skipSpace (space ++ .char '"' :: (more ++ after)) =
      .char '"' :: (more ++ after) := by
    rw [skipSpace_blank_append hspace, skipSpace_cons rfl]
  rw [List.cons_append] at hread
  simp [readDocument, hskip, hread]

theorem emptyArray (hspace : Blank space) :
    Spells (.array []) (.char '[' :: space ++ [.char ']']) := by
  intro fuel after hfuel _
  obtain ⟨fuel, rfl⟩ := Nat.exists_eq_add_one.mpr (Nat.zero_lt_of_lt hfuel)
  have hskip : skipSpace (space ++ .char ']' :: after) = .char ']' :: after := by
    rw [skipSpace_blank_append hspace, skipSpace_cons rfl]
  simp [readDocument, hskip]

theorem array {ds : List Document} (hspace : Blank space) (h : SpellsElements ds piece) :
    Spells (.array ds) (.char '[' :: space ++ piece) := by
  intro fuel after hfuel _
  obtain ⟨fuel, rfl⟩ := Nat.exists_eq_add_one.mpr (Nat.zero_lt_of_lt hfuel)
  have hread := h fuel after (by
    simp only [List.cons_append, List.length_cons, List.length_append] at hfuel
    omega)
  obtain ⟨p, more, rfl, hp⟩ := h.begins
  have hskip : skipSpace (space ++ p :: (more ++ after)) = p :: (more ++ after) := by
    rw [skipSpace_blank_append hspace, skipSpace_cons (isSpace_of_beginsDocument hp)]
  have hclose : p ≠ .char ']' := by
    rintro rfl
    cases hp
  rw [List.cons_append] at hread
  simp [readDocument, hskip, hclose, hread]

/-- A word spells its document. -/
theorem word {w : List CodePoint × Document} (hw : w ∈ words) : Spells w.2 w.1 := by
  intro fuel after hfuel _
  simp only [words, List.mem_cons, List.not_mem_nil, or_false] at hw
  rcases hw with rfl | rfl | rfl | rfl | rfl | rfl
  all_goals
    obtain ⟨fuel, rfl⟩ := Nat.exists_eq_add_one.mpr (Nat.zero_lt_of_lt hfuel)
    simp [readDocument, readWord?, words, Text.points, List.isPrefixOf]

theorem spanNumeric_map_append {cs : List Char} (hcs : ∀ c ∈ cs, isNumeric c = true)
    {after : List CodePoint} (hafter : Stops after) :
    spanNumeric (cs.map .char ++ after) = (cs, after) := by
  induction cs with
  | nil =>
      have hsplit := spanNumeric_append after
      rw [show (spanNumeric after).1 = [] from hafter, List.map_nil, List.nil_append] at hsplit
      rw [List.map_nil, List.nil_append]
      exact Prod.ext hafter hsplit.symm
  | cons c cs ih =>
      have hc := hcs c List.mem_cons_self
      have hrest := ih fun c hmem => hcs c (List.mem_cons_of_mem _ hmem)
      simp [spanNumeric, hc, hrest]

theorem ne_of_isDigit {c other : Char} (hc : c.isDigit = true) (hother : other.isDigit = false) :
    c ≠ other := by
  rintro rfl
  rw [hc] at hother
  cases hother

/-- A word does not begin like a number. -/
theorem readWord?_eq_none {cs rest : List Char} {n : Numeral}
    (h : readNumeral? cs = some (n, rest)) (after : List CodePoint) :
    readWord? (cs.map .char ++ after) = none := by
  obtain ⟨c, more, hc, hhead⟩ := readNumeral?_head h
  have hne {w : Char} (hw : w.isDigit = false) : w ≠ c := (ne_of_isDigit hc hw).symm
  rcases hhead with rfl | rfl <;>
    simp [readWord?, words, Text.points, List.isPrefixOf, hne]

theorem number {cs : List Char} {n : Numeral} {d : Document}
    (hcs : ∀ c ∈ cs, isNumeric c = true) (hread : readNumeral? cs = some (n, []))
    (hd : n.document = .ok d) : Spells d (cs.map .char) := by
  intro fuel after hfuel hafter
  have hnumber : readNumber? (cs.map .char ++ after) = some (n, after) := by
    simp [readNumber?, spanNumeric_map_append hcs hafter, hread]
  have hword := readWord?_eq_none hread after
  obtain ⟨c, more, hc, hhead⟩ := readNumeral?_head hread
  have hne {w : Char} (hw : w.isDigit = false) : c ≠ w := ne_of_isDigit hc hw
  rcases hhead with rfl | rfl
  all_goals
    obtain ⟨fuel, rfl⟩ := Nat.exists_eq_add_one.mpr (Nat.zero_lt_of_lt hfuel)
    simp only [List.map_cons, List.cons_append] at hword hnumber ⊢
    simp [readDocument, hword, hnumber, hd, hne]

end Spells

namespace SpellsElements

variable {d : Document} {first piece space : List CodePoint}

theorem last (h : Spells d first) (hspace : Blank space) :
    SpellsElements [d] (first ++ space ++ [.char ']']) := by
  intro fuel after hfuel
  obtain ⟨p, more, hfirst, -⟩ := h.begins
  simp only [List.length_append, List.length_singleton] at hfuel
  obtain ⟨fuel, rfl⟩ := Nat.exists_eq_add_one.mpr (Nat.zero_lt_of_lt hfuel)
  have hskip : skipSpace (space ++ .char ']' :: after) = .char ']' :: after := by
    rw [skipSpace_blank_append hspace, skipSpace_cons rfl]
  have hread := h fuel (space ++ .char ']' :: after) (by omega)
    (stops_of_skipSpace rfl hskip)
  simp [readElements, hread, hskip]

theorem cons {ds : List Document} {space' : List CodePoint} (h : Spells d first)
    (hspace : Blank space) (hspace' : Blank space') (hrest : SpellsElements ds piece) :
    SpellsElements (d :: ds) (first ++ space ++ .char ',' :: space' ++ piece) := by
  intro fuel after hfuel
  simp only [List.length_append, List.length_cons] at hfuel
  obtain ⟨fuel, rfl⟩ := Nat.exists_eq_add_one.mpr (show 0 < fuel by omega)
  have hskip : skipSpace (space ++ .char ',' :: (space' ++ (piece ++ after))) =
      .char ',' :: (space' ++ (piece ++ after)) := by
    rw [skipSpace_blank_append hspace, skipSpace_cons rfl]
  have hread := h fuel _ (by omega) (stops_of_skipSpace rfl hskip)
  have hreadRest := hrest fuel after (by omega)
  obtain ⟨p, more, rfl, hp⟩ := hrest.begins
  have hskip' : skipSpace (space' ++ (p :: more ++ after)) = p :: more ++ after := by
    rw [skipSpace_blank_append hspace']
    exact skipSpace_cons (isSpace_of_beginsDocument hp) _
  simp only [List.append_assoc, List.cons_append] at hskip hskip' hread hreadRest ⊢
  simp [readElements, hread, hskip, hskip', hreadRest]

end SpellsElements

namespace SpellsMembers

variable {name nameText value piece : List CodePoint} {d : Document}
  {space₁ space₂ space₃ space₄ : List CodePoint}

/-- What reading a member comes to on the way to what follows its document: the name is read,
and the space around the colon is skipped. -/
theorem readName (hname : SpellsText name nameText) (hspace₁ : Blank space₁)
    (hspace₂ : Blank space₂) (hvalue : Spells d value) (after : List CodePoint) :
    (∀ start fuel, nameText.length ≤ fuel →
      readText start fuel [] (nameText ++ (space₁ ++ .char ':' :: (space₂ ++ (value ++ after)))) =
        .ok (name, space₁ ++ .char ':' :: (space₂ ++ (value ++ after)))) ∧
      skipSpace (space₁ ++ .char ':' :: (space₂ ++ (value ++ after))) =
        .char ':' :: (space₂ ++ (value ++ after)) ∧
      skipSpace (space₂ ++ (value ++ after)) = value ++ after := by
  refine ⟨fun start fuel hfuel => ?_, ?_, ?_⟩
  · simpa using hname start fuel [] _ hfuel
  · rw [skipSpace_blank_append hspace₁, skipSpace_cons rfl]
  · rw [skipSpace_blank_append hspace₂, hvalue.skipSpace_append]

theorem last (hname : SpellsText name nameText) (hspace₁ : Blank space₁)
    (hspace₂ : Blank space₂) (hvalue : Spells d value) (hspace₃ : Blank space₃) :
    SpellsMembers [(name, d)] (.char '"' :: nameText ++ space₁ ++ .char ':' :: space₂ ++ value ++
      space₃ ++ [.char '\x7d']) := by
  intro fuel after hfuel
  simp only [List.length_append, List.length_cons] at hfuel
  obtain ⟨fuel, rfl⟩ := Nat.exists_eq_add_one.mpr (show 0 < fuel by omega)
  have hskip : skipSpace (space₃ ++ .char '\x7d' :: after) = .char '\x7d' :: after := by
    rw [skipSpace_blank_append hspace₃, skipSpace_cons rfl]
  have hread := hvalue fuel (space₃ ++ .char '\x7d' :: after) (by omega)
    (stops_of_skipSpace rfl hskip)
  obtain ⟨hnameRead, hcolon, hvalueSkip⟩ :=
    readName hname hspace₁ hspace₂ hvalue (space₃ ++ .char '\x7d' :: after)
  simp only [List.append_assoc, List.cons_append, List.nil_append]
  rw [readMembers, hnameRead _ _ (by simp only [List.length_append]; omega)]
  simp only [hcolon, hvalueSkip, hread, hskip]

theorem cons {members : List (List CodePoint × Document)} (hname : SpellsText name nameText)
    (hspace₁ : Blank space₁) (hspace₂ : Blank space₂) (hvalue : Spells d value)
    (hspace₃ : Blank space₃) (hspace₄ : Blank space₄) (hrest : SpellsMembers members piece) :
    SpellsMembers ((name, d) :: members) (.char '"' :: nameText ++ space₁ ++ .char ':' ::
      space₂ ++ value ++ space₃ ++ .char ',' :: space₄ ++ piece) := by
  intro fuel after hfuel
  simp only [List.length_append, List.length_cons] at hfuel
  obtain ⟨fuel, rfl⟩ := Nat.exists_eq_add_one.mpr (show 0 < fuel by omega)
  have hskip : skipSpace (space₃ ++ .char ',' :: (space₄ ++ (piece ++ after))) =
      .char ',' :: (space₄ ++ (piece ++ after)) := by
    rw [skipSpace_blank_append hspace₃, skipSpace_cons rfl]
  have hread := hvalue fuel (space₃ ++ .char ',' :: (space₄ ++ (piece ++ after))) (by omega)
    (stops_of_skipSpace rfl hskip)
  have hreadRest := hrest fuel after (by omega)
  have hskip' : skipSpace (space₄ ++ (piece ++ after)) = piece ++ after := by
    obtain ⟨more, rfl⟩ := hrest.begins
    rw [skipSpace_blank_append hspace₄]
    exact skipSpace_cons rfl _
  obtain ⟨hnameRead, hcolon, hvalueSkip⟩ :=
    readName hname hspace₁ hspace₂ hvalue (space₃ ++ .char ',' :: (space₄ ++ (piece ++ after)))
  simp only [List.append_assoc, List.cons_append]
  rw [readMembers, hnameRead _ _ (by simp only [List.length_append]; omega)]
  simp only [hcolon, hvalueSkip, hread, hskip, hskip', hreadRest]

end SpellsMembers

/-! ### Taking documents apart -/

theorem isNumeric_of_mem_spanNumeric {cs : List CodePoint} {c : Char}
    (h : c ∈ (spanNumeric cs).1) : isNumeric c = true := by
  fun_induction spanNumeric cs with
  | case1 c' rest hc ih =>
      rcases List.mem_cons.mp h with rfl | hmem
      · exact hc
      · exact ih hmem
  | case2 => cases h
  | case3 => cases h

/-- A number that stops where the text goes on is one of the grammar, and spells its document. -/
theorem exists_spells_of_readNumber? {cs rest : List CodePoint} {n : Numeral} {d : Document}
    (h : readNumber? cs = some (n, rest)) (hd : n.document = .ok d) (hrest : Stops rest) :
    ∃ piece, cs = piece ++ rest ∧ Derives extendedWords .document piece ∧ Spells d piece := by
  obtain ⟨left, hnumeral, rfl⟩ := readNumber?_eq_some h
  obtain ⟨spelled, hspelled, hnumber⟩ := readNumeral?_spelled hnumeral hd
  have hleft : left = [] := by
    cases left with
    | nil => rfl
    | cons c more =>
        have hmem : c ∈ (spanNumeric cs).1 := by
          rw [hspelled]
          exact List.mem_append_right _ List.mem_cons_self
        have hc := isNumeric_of_mem_spanNumeric hmem
        simp [Stops, spanNumeric, hc] at hrest
  subst hleft
  rw [List.append_nil] at hspelled
  exact ⟨_, spanNumeric_append cs, .number (hspelled ▸ hnumber),
    .number (fun _ => isNumeric_of_mem_spanNumeric) hnumeral hd⟩

/-- What the readers take off the input with an amount of fuel is a piece of the grammar, and
spells what they read. -/
structure ReadsPieces (fuel : Nat) : Prop where
  document : ∀ {cs d rest}, readDocument fuel cs = .ok (d, rest) → Stops rest →
    ∃ piece, cs = piece ++ rest ∧ Derives extendedWords .document piece ∧ Spells d piece
  elements : ∀ {cs ds rest}, readElements fuel cs = .ok (ds, rest) →
    ∃ piece, cs = piece ++ rest ∧ Derives extendedWords .elements piece ∧
      SpellsElements ds piece
  members : ∀ {cs members rest}, readMembers fuel cs = .ok (members, rest) →
    ∃ piece, cs = piece ++ rest ∧ Derives extendedWords .members piece ∧
      SpellsMembers members piece

namespace ReadsPieces

variable {fuel : Nat} {cs rest : List CodePoint}

theorem document_succ (ih : ReadsPieces fuel) {d : Document}
    (h : readDocument (fuel + 1) cs = .ok (d, rest)) (hrest : Stops rest) :
    ∃ piece, cs = piece ++ rest ∧ Derives extendedWords .document piece ∧ Spells d piece := by
  unfold readDocument at h
  split at h
  · next inside =>
    split at h
    · cases h
    · next s after htext =>
      cases h
      obtain ⟨t, piece, rfl, rfl, hquoted, ht⟩ := readText_spells htext
      exact ⟨.char '"' :: piece, rfl, .text hquoted, .text ht⟩
  · next inside =>
    obtain ⟨space, hspace, hinside⟩ := exists_blank_append inside
    split at h
    · next more hskip =>
      cases h
      rw [hskip] at hinside
      exact ⟨.char '\x7b' :: space ++ [.char '\x7d'], by simp [hinside], .emptyObject hspace,
        .emptyObject hspace⟩
    · split at h
      · cases h
      · next members after hmembers =>
        cases h
        obtain ⟨piece, hpiece, hderives, hspells⟩ := ih.members hmembers
        rw [hpiece] at hinside
        exact ⟨.char '\x7b' :: space ++ piece, by simp [hinside], .object hspace hderives,
          .object hspace hspells⟩
  · next inside =>
    obtain ⟨space, hspace, hinside⟩ := exists_blank_append inside
    split at h
    · next more hskip =>
      cases h
      rw [hskip] at hinside
      exact ⟨.char '[' :: space ++ [.char ']'], by simp [hinside], .emptyArray hspace,
        .emptyArray hspace⟩
    · split at h
      · cases h
      · next ds after helements =>
        cases h
        obtain ⟨piece, hpiece, hderives, hspells⟩ := ih.elements helements
        rw [hpiece] at hinside
        exact ⟨.char '[' :: space ++ piece, by simp [hinside], .array hspace hderives,
          .array hspace hspells⟩
  · split at h
    · next answer hword =>
      cases h
      obtain ⟨w, hw, rfl, rfl⟩ := readWord?_eq_some hword
      exact ⟨w.1, rfl, .word (List.mem_map_of_mem hw), .word hw⟩
    · split at h
      · cases h
      · next numeral after hnumber =>
        split at h
        · cases h
        · next d' hd =>
          cases h
          exact exists_spells_of_readNumber? hnumber hd hrest

theorem elements_succ (ih : ReadsPieces fuel) {ds : List Document}
    (h : readElements (fuel + 1) cs = .ok (ds, rest)) :
    ∃ piece, cs = piece ++ rest ∧ Derives extendedWords .elements piece ∧
      SpellsElements ds piece := by
  rw [readElements] at h
  split at h
  · cases h
  · next d after hfirst =>
    obtain ⟨space, hspace, hafter⟩ := exists_blank_append after
    split at h
    · next more hskip =>
      cases h
      obtain ⟨piece, rfl, hderives, hpiece⟩ :=
        ih.document hfirst (stops_of_skipSpace rfl hskip)
      rw [hskip] at hafter
      exact ⟨_, by simp [hafter], .lastElement hderives hspace, .last hpiece hspace⟩
    · next more hskip =>
      obtain ⟨piece, rfl, hderives, hpiece⟩ :=
        ih.document hfirst (stops_of_skipSpace rfl hskip)
      obtain ⟨space', hspace', hmore⟩ := exists_blank_append more
      rw [hskip] at hafter
      split at h
      · cases h
      · next others last helements =>
        cases h
        obtain ⟨piece', hpiece', hderives', hspells⟩ := ih.elements helements
        rw [hpiece'] at hmore
        exact ⟨_, by simp [hafter, hmore], .element hderives hspace hspace' hderives',
          .cons hpiece hspace hspace' hspells⟩
    · cases h

theorem members_succ (ih : ReadsPieces fuel) {members : List (List CodePoint × Document)}
    (h : readMembers (fuel + 1) cs = .ok (members, rest)) :
    ∃ piece, cs = piece ++ rest ∧ Derives extendedWords .members piece ∧
      SpellsMembers members piece := by
  unfold readMembers at h
  split at h
  · next inside =>
    split at h
    · cases h
    · next name afterName htext =>
      obtain ⟨t, nameText, rfl, rfl, hquoted, hname⟩ := readText_spells htext
      obtain ⟨space₁, hspace₁, hafterName⟩ := exists_blank_append afterName
      split at h
      · next afterColon hcolon =>
        rw [hcolon] at hafterName
        obtain ⟨space₂, hspace₂, hafterColon⟩ := exists_blank_append afterColon
        split at h
        · cases h
        · next d after hvalue =>
          obtain ⟨space₃, hspace₃, hafter⟩ := exists_blank_append after
          split at h
          · next more hskip =>
            cases h
            obtain ⟨value, hpiece, hderives, hspells⟩ :=
              ih.document hvalue (stops_of_skipSpace rfl hskip)
            rw [hskip] at hafter
            rw [hpiece] at hafterColon
            exact ⟨_, by simp [hafterName, hafterColon, hafter],
              .lastMember hquoted hspace₁ hspace₂ hderives hspace₃,
              .last hname hspace₁ hspace₂ hspells hspace₃⟩
          · next more hskip =>
            obtain ⟨value, hpiece, hderives, hspells⟩ :=
              ih.document hvalue (stops_of_skipSpace rfl hskip)
            obtain ⟨space₄, hspace₄, hmore⟩ := exists_blank_append more
            rw [hskip] at hafter
            rw [hpiece] at hafterColon
            split at h
            · cases h
            · next others last hmembers =>
              cases h
              obtain ⟨piece', hpiece', hderives', hspells'⟩ := ih.members hmembers
              rw [hpiece'] at hmore
              exact ⟨_, by simp [hafterName, hafterColon, hafter, hmore],
                .member hquoted hspace₁ hspace₂ hderives hspace₃ hspace₄ hderives',
                .cons hname hspace₁ hspace₂ hspells hspace₃ hspace₄ hspells'⟩
          · cases h
      · cases h
  · cases h

end ReadsPieces

/-- With any amount of fuel, the readers take pieces of the grammar off that spell what they
read. -/
theorem readsPieces (fuel : Nat) : ReadsPieces fuel := by
  induction fuel with
  | zero =>
      refine ⟨fun h _ => ?_, fun h => ?_, fun h => ?_⟩
      · simp [readDocument] at h
      · simp [readElements] at h
      · simp [readMembers] at h
  | succ fuel ih => exact ⟨ih.document_succ, ih.elements_succ, ih.members_succ⟩

/-! ### Whole texts -/

/-- What is read as a whole is space around a piece of the grammar that spells what it is read
as. -/
theorem exists_piece_of_read {cs : List CodePoint} {d : Document} (h : read cs = .ok d) :
    ∃ before piece after, cs = before ++ piece ++ after ∧ Blank before ∧ Blank after ∧
      Derives extendedWords .document piece ∧ Spells d piece := by
  unfold read at h
  split at h
  · cases h
  · split at h
    · cases h
    · next d' rest hread =>
      split at h
      · next hskip =>
        cases h
        obtain ⟨before, hbefore, hcs⟩ := exists_blank_append cs
        obtain ⟨after, hafter, hrest⟩ := exists_blank_append rest
        rw [hskip, List.append_nil] at hrest
        subst hrest
        obtain ⟨piece, hpiece, hderives, hspells⟩ :=
          (readsPieces _).document hread (stops_blank hafter)
        rw [hpiece, ← List.append_assoc] at hcs
        exact ⟨before, piece, rest, hcs, hbefore, hafter, hderives, hspells⟩
      · cases h

/-- A whole text is read as a document exactly if a piece of it spells the document, with
nothing but space around. -/
theorem read_eq_ok_iff {cs : List CodePoint} {d : Document} :
    read cs = .ok d ↔ ∃ before piece after, cs = before ++ piece ++ after ∧ Blank before ∧
      Blank after ∧ Spells d piece := by
  constructor
  · intro h
    obtain ⟨before, piece, after, hcs, hbefore, hafter, -, hspells⟩ := exists_piece_of_read h
    exact ⟨before, piece, after, hcs, hbefore, hafter, hspells⟩
  · rintro ⟨before, piece, after, rfl, hbefore, hafter, hspells⟩
    have hskip : skipSpace (before ++ piece ++ after) = piece ++ after := by
      rw [List.append_assoc, skipSpace_blank_append hbefore, hspells.skipSpace_append]
    have hread := hspells (2 * (before ++ piece ++ after).length + 2) after (by
      simp only [List.length_append]
      omega) (stops_blank hafter)
    have hrest : skipSpace after = [] := by
      have hskip := skipSpace_blank_append hafter []
      rwa [List.append_nil] at hskip
    obtain ⟨p, tail, rfl, hp⟩ := hspells.begins
    unfold read
    split
    · next more hmark =>
      -- A byte order mark is no space and begins no document.
      cases before with
      | nil =>
          cases hmark
          cases hp
      | cons q before =>
          cases hmark
          cases hbefore _ List.mem_cons_self
    · rw [hskip, hread]
      simp [hrest]

end UsageReport.Json
