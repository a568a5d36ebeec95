/-
Derivations and what the reader makes of them.  Every piece that the grammar derives from words
that are read spells something, so the reader takes exactly the texts of the grammar with all
its words.  A piece can be told from what follows it, so a text is taken apart in one way only:
a member of an object is derived on its own, whatever stands behind it.
-/
import UsageReport.Proofs.Json.Spelling

namespace UsageReport.Json

open Text (CodePoint)

variable {vocabulary : List (List CodePoint)}

/-! ### Pieces that are derived -/

/-- A quoted rest spells a text, and so does what follows a unit that it begins with. -/
theorem IsQuoted.exists_spells {piece : List CodePoint} (h : IsQuoted piece) :
    (∃ s, SpellsText s piece) ∧
      ∀ more low rest, piece = .char '\\' :: .char 'u' :: more →
        readHex? more = some (low, rest) → ∃ s, SpellsText s rest := by
  induction h with
  | close =>
      refine ⟨⟨_, .quote⟩, ?_⟩
      rintro more low rest ⟨⟩
  | plain hquote hslash hcontrol h ih =>
      obtain ⟨⟨s, hs⟩, -⟩ := ih
      refine ⟨⟨_, hs.plain hquote hslash hcontrol⟩, ?_⟩
      rintro more low rest heq
      exact absurd (List.cons.inj heq).1 hslash
  | escape he h ih =>
      obtain ⟨⟨s, hs⟩, -⟩ := ih
      obtain ⟨x, hx⟩ := exists_simpleEscape?_iff.mpr ⟨_, he, rfl⟩
      refine ⟨⟨_, hs.escape hx⟩, ?_⟩
      rintro more low rest heq
      cases heq
      simp at he
  | unit hdigits h ih =>
      rename_i a b c d rest
      obtain ⟨⟨s, hs⟩, hunit⟩ := ih
      obtain ⟨n, hfour⟩ := exists_hexFour?_iff.mpr hdigits
      constructor
      · -- Two halves that stand side by side are one character.
        by_cases hpair : isHighHalf n = true ∧ BeginsLowHalf rest
        · obtain ⟨hhigh, more, low, after, rfl, hlow, hhalf⟩ := hpair
          obtain ⟨t, ht⟩ := hunit more low after rfl hlow
          obtain ⟨e, f, g, k, rfl, hfour', -⟩ := readHex?_eq_some hlow
          exact ⟨_, ht.pair hfour hhigh hfour' hhalf⟩
        · exact ⟨_, hs.unit hfour fun hhigh hlow => hpair ⟨hhigh, hlow⟩⟩
      · rintro more low after heq hlow
        obtain ⟨a', b', c', d', rfl, -, -⟩ := readHex?_eq_some hlow
        cases heq
        exact ⟨s, hs⟩

/-- The piece spells something, as the part that it is. -/
def Part.Spelled : Part → List CodePoint → Prop
  | .document, piece => ∃ d, Spells d piece
  | .elements, piece => ∃ ds, SpellsElements ds piece
  | .members, piece => ∃ members, SpellsMembers members piece

/-- What is derived from words that are read spells something. -/
theorem Derives.spelled (hwords : vocabulary ⊆ extendedWords) {part : Part}
    {piece : List CodePoint} (h : Derives vocabulary part piece) : part.Spelled piece := by
  induction h with
  | word hw =>
      obtain ⟨w, hmem, rfl⟩ : ∃ w ∈ words, w.1 = _ := List.mem_map.mp (hwords hw)
      exact ⟨w.2, .word hmem⟩
  | number hnumber =>
      obtain ⟨n, d, hread, hd⟩ := readNumeral?_of_isNumber hnumber
      exact ⟨d, .number (isNumeric_of_isNumber hnumber) hread hd⟩
  | text hquoted =>
      obtain ⟨s, hs⟩ := hquoted.exists_spells.1
      exact ⟨.text s, .text hs⟩
  | emptyArray hspace => exact ⟨.array [], .emptyArray hspace⟩
  | array hspace _ ih =>
      obtain ⟨ds, hds⟩ := ih
      exact ⟨.array ds, .array hspace hds⟩
  | emptyObject hspace => exact ⟨.object [], .emptyObject hspace⟩
  | object hspace _ ih =>
      obtain ⟨members, hmembers⟩ := ih
      exact ⟨.object members, .object hspace hmembers⟩
  | lastElement _ hspace ih =>
      obtain ⟨d, hd⟩ := ih
      exact ⟨[d], .last hd hspace⟩
  | element _ hspace hspace' _ ih ihRest =>
      obtain ⟨d, hd⟩ := ih
      obtain ⟨ds, hds⟩ := ihRest
      exact ⟨d :: ds, .cons hd hspace hspace' hds⟩
  | lastMember hname hspace₁ hspace₂ _ hspace₃ ih =>
      obtain ⟨s, hs⟩ := hname.exists_spells.1
      obtain ⟨d, hd⟩ := ih
      exact ⟨[(s, d)], .last hs hspace₁ hspace₂ hd hspace₃⟩
  | member hname hspace₁ hspace₂ _ hspace₃ hspace₄ _ ih ihRest =>
      obtain ⟨s, hs⟩ := hname.exists_spells.1
      obtain ⟨d, hd⟩ := ih
      obtain ⟨members, hmembers⟩ := ihRest
      exact ⟨(s, d) :: members, .cons hs hspace₁ hspace₂ hd hspace₃ hspace₄ hmembers⟩

/-- The reader takes exactly the texts of the grammar, with all its words. -/
theorem exists_read_iff {cs : List CodePoint} :
    (∃ d, read cs = .ok d) ↔ IsText extendedWords cs := by
  constructor
  · rintro ⟨d, h⟩
    obtain ⟨before, piece, after, hcs, hbefore, hafter, hderives, -⟩ := exists_piece_of_read h
    exact ⟨before, piece, after, hcs, hbefore, hafter, hderives⟩
  · rintro ⟨before, piece, after, hcs, hbefore, hafter, hderives⟩
    obtain ⟨d, hspells⟩ := hderives.spelled fun _ hw => hw
    exact ⟨d, read_eq_ok_iff.mpr ⟨before, piece, after, hcs, hbefore, hafter, hspells⟩⟩

/-- The words for what is no finite number are no documents of the standard. -/
theorem not_derives_standard {w : List CodePoint}
    (hw : w ∈ [Text.points "NaN", Text.points "Infinity", Text.points "-Infinity"]) :
    ¬Derives standardWords .document w := by
  have hletter : ∀ w ∈ [Text.points "NaN", Text.points "Infinity", Text.points "-Infinity"],
      w ∉ standardWords ∧ (.char 'N' ∈ w ∨ .char 'I' ∈ w) := by decide
  intro h
  cases h with
  | word hword => exact (hletter w hw).1 hword
  | number hnumber =>
      have hnumeric := isNumeric_of_isNumber hnumber
      rcases (hletter _ hw).2 with hmem | hmem
      all_goals
        obtain ⟨c, hc, heq⟩ := List.mem_map.mp hmem
        cases heq
        cases hnumeric _ hc
  | text => simp [Text.points] at hw
  | emptyArray => simp [Text.points] at hw
  | array => simp [Text.points] at hw
  | emptyObject => simp [Text.points] at hw
  | object => simp [Text.points] at hw

/-! ### Taking derived texts apart -/

section Apart

variable {piece piece' after after' : List CodePoint}

/-- What one reader takes off two texts that are the same are the same pieces. -/
theorem append_inj_of_read {α : Type} {reader : List CodePoint → Read α} {x x' : α}
    (h : reader (piece ++ after) = .ok (x, after))
    (h' : reader (piece' ++ after') = .ok (x', after'))
    (heq : piece ++ after = piece' ++ after') : piece = piece' ∧ after = after' := by
  rw [heq, h'] at h
  obtain rfl : after' = after := by
    simp only [Except.ok.injEq, Prod.mk.injEq] at h
    exact h.2
  exact ⟨List.append_cancel_right heq, rfl⟩

/-- A quoted piece ends where its closing quote stands, whatever follows. -/
theorem IsQuoted.append_inj (h : IsQuoted piece) (h' : IsQuoted piece')
    (heq : piece ++ after = piece' ++ after') : piece = piece' ∧ after = after' := by
  obtain ⟨s, hs⟩ := h.exists_spells.1
  obtain ⟨s', hs'⟩ := h'.exists_spells.1
  exact append_inj_of_read (hs [] (piece.length + piece'.length) [] after (by omega))
    (hs' [] (piece.length + piece'.length) [] after' (by omega)) heq

/-- A document ends in one place only, if no number can run on. -/
theorem Spells.append_inj {d d' : Document} (h : Spells d piece) (h' : Spells d' piece')
    (hafter : Stops after) (hafter' : Stops after')
    (heq : piece ++ after = piece' ++ after') : piece = piece' ∧ after = after' :=
  append_inj_of_read (h (piece.length + piece'.length) after (by omega) hafter)
    (h' (piece.length + piece'.length) after' (by omega) hafter') heq

/-- Members are a name in quotes, its document, and what is left: the closing brace, or a comma
and the other members. -/
theorem Derives.exists_first_member {cs : List CodePoint} (h : Derives vocabulary .members cs) :
    ∃ name space₁ space₂ value space₃ rest,
      cs = .char '"' :: (name ++ (space₁ ++ .char ':' :: (space₂ ++ (value ++
        (space₃ ++ rest))))) ∧
      IsQuoted name ∧ Blank space₁ ∧ Blank space₂ ∧ Derives vocabulary .document value ∧
      Blank space₃ ∧ (rest = [.char '\x7d'] ∨
        ∃ space₄ piece, rest = .char ',' :: (space₄ ++ piece) ∧ Blank space₄ ∧
          Derives vocabulary .members piece) := by
  cases h with
  | lastMember hname hspace₁ hspace₂ hvalue hspace₃ =>
      exact ⟨_, _, _, _, _, _, by simp, hname, hspace₁, hspace₂, hvalue, hspace₃, Or.inl rfl⟩
  | member hname hspace₁ hspace₂ hvalue hspace₃ hspace₄ hrest =>
      exact ⟨_, _, _, _, _, _, by simp, hname, hspace₁, hspace₂, hvalue, hspace₃,
        Or.inr ⟨_, _, rfl, hspace₄, hrest⟩⟩

theorem Derives.quote_of_members {cs : List CodePoint} (h : Derives vocabulary .members cs) :
    ∃ more, cs = .char '"' :: more := by
  obtain ⟨name, space₁, space₂, value, space₃, rest, rfl, -⟩ := h.exists_first_member
  exact ⟨_, rfl⟩

theorem Derives.skipSpace_members {space cs : List CodePoint} (hspace : Blank space)
    (h : Derives vocabulary .members cs) : skipSpace (space ++ cs) = cs := by
  obtain ⟨more, rfl⟩ := h.quote_of_members
  rw [skipSpace_blank_append hspace, skipSpace_cons rfl]

/-- A member that is written without space is told from what follows: its document is derived
on its own, and so are the other members. -/
theorem Derives.of_member (hwords : vocabulary ⊆ extendedWords) {name value : List CodePoint}
    {d : Document}
    (h : Derives vocabulary .members (.char '"' :: (name ++ .char ':' :: (value ++ after))))
    (hname : IsQuoted name) (hvalue : Spells d value) (hstops : Stops after)
    (hafter : skipSpace after = after) :
    Derives vocabulary .document value ∧ (after = [.char '\x7d'] ∨
      ∃ space piece, after = .char ',' :: (space ++ piece) ∧ Blank space ∧
        Derives vocabulary .members piece) := by
  obtain ⟨name', space₁, space₂, value', space₃, rest, heq, hname', hspace₁, hspace₂, hvalue',
    hspace₃, hrest⟩ := h.exists_first_member
  obtain ⟨d', hspells'⟩ := hvalue'.spelled hwords
  have hskipRest : skipSpace rest = rest := by
    rcases hrest with rfl | ⟨space₄, piece, rfl, -, -⟩ <;> exact skipSpace_cons rfl _
  have hskipRest' : skipSpace (space₃ ++ rest) = rest := by
    rw [skipSpace_blank_append hspace₃, hskipRest]
  have hstops' : Stops (space₃ ++ rest) := by
    rcases hrest with rfl | ⟨space₄, piece, rfl, -, -⟩ <;>
      exact stops_of_skipSpace rfl hskipRest'
  -- The name ends with its quote, and all the space that may stand is told from the rest.
  obtain ⟨-, hcolon⟩ := hname.append_inj hname' (List.cons.inj heq).2
  have hskipColon := congrArg skipSpace hcolon
  rw [skipSpace_blank_append hspace₁, skipSpace_cons rfl, skipSpace_cons rfl] at hskipColon
  have hskipValue := congrArg skipSpace (List.cons.inj hskipColon).2
  rw [skipSpace_blank_append hspace₂, hvalue.skipSpace_append,
    hspells'.skipSpace_append] at hskipValue
  obtain ⟨rfl, rfl⟩ := hvalue.append_inj hspells' hstops hstops' hskipValue
  rw [hskipRest'] at hafter
  rw [← hafter]
  exact ⟨hvalue', hrest⟩

/-- What opens with a brace is an object: it is empty, or its members are derived. -/
theorem Derives.of_brace (hwords : vocabulary ⊆ extendedWords) {cs : List CodePoint}
    (hskip : skipSpace cs = cs) (h : Derives vocabulary .document (.char '\x7b' :: cs)) :
    cs = [.char '\x7d'] ∨ Derives vocabulary .members cs := by
  generalize htext : CodePoint.char '\x7b' :: cs = text at h
  cases h with
  | word hw =>
      have hw := hwords hw
      rw [← htext] at hw
      simp [extendedWords, standardWords, Text.points] at hw
  | number hnumber =>
      rename_i spelled
      obtain ⟨c, more, rfl⟩ : ∃ c more, spelled = c :: more :=
        List.exists_cons_of_ne_nil (by rintro rfl; cases htext)
      have hc := isNumeric_of_isNumber hnumber c List.mem_cons_self
      cases htext
      cases hc
  | text => cases htext
  | emptyArray => cases htext
  | array => cases htext
  | emptyObject hspace =>
      obtain rfl : cs = _ ++ [.char '\x7d'] := (List.cons.inj htext).2
      rw [skipSpace_blank_append hspace] at hskip
      exact Or.inl hskip.symm
  | object hspace hmembers =>
      obtain rfl : cs = _ ++ _ := (List.cons.inj htext).2
      rw [hmembers.skipSpace_members hspace] at hskip
      rw [← hskip]
      exact Or.inr hmembers

end Apart

end UsageReport.Json
