/-
Texts that are written spell themselves.  Escapes are undone one by one, and no written escape
of a single unit is half of a pair, so nothing is joined that was written apart.
-/
import UsageReport.Json.Writer
import UsageReport.Proofs.Json.Spelling

namespace UsageReport.Json

open Text (CodePoint)

theorem hexDigit?_hexDigit : ∀ n, n < 16 → Text.hexDigit? (Text.hexDigit n) = some n := by
  decide

theorem hexDigit?_char {n : Nat} :
    hexDigit? (.char (Text.hexDigit (n % 16))) = some (n % 16) :=
  hexDigit?_hexDigit _ (Nat.mod_lt _ (by decide))

theorem hexDigits_four (n : Nat) :
    Text.hexDigits 4 n = [Text.hexDigit (n / 4096 % 16), Text.hexDigit (n / 256 % 16),
      Text.hexDigit (n / 16 % 16), Text.hexDigit (n % 16)] := by
  simp [Text.hexDigits, Nat.div_div_eq_div_mul]

/-- Four digits of a unit spell the unit. -/
theorem hexFour?_hexDigits {n : Nat} (h : n < 65536) :
    hexFour? (.char (Text.hexDigit (n / 4096 % 16))) (.char (Text.hexDigit (n / 256 % 16)))
      (.char (Text.hexDigit (n / 16 % 16))) (.char (Text.hexDigit (n % 16))) = some n := by
  simp only [hexFour?, hexDigit?_char, Option.bind_eq_bind, Option.bind_some, Option.pure_def,
    Option.some.injEq]
  omega

theorem not_half_of_char (c : Char) :
    isHighHalf c.toNat = false ∧ isLowHalf c.toNat = false := by
  have hvalid : c.toNat < 0xD800 ∨ 0xDFFF < c.toNat ∧ c.toNat < 0x110000 := c.valid
  constructor
  · simp only [isHighHalf, Bool.and_eq_false_iff, decide_eq_false_iff_not]
    omega
  · simp only [isLowHalf, Bool.and_eq_false_iff, decide_eq_false_iff_not]
    omega

theorem unitPoint_char (c : Char) : unitPoint c.toNat = .char c := by
  obtain ⟨hhigh, hlow⟩ := not_half_of_char c
  simp [unitPoint, hhigh, hlow]

/-- A character is written by an escape of its own, by its number, or as it is. -/
theorem writeChar_cases (ascii : Bool) (c : Char) :
    (∃ letter : Char, 32 ≤ letter.toNat ∧ simpleEscape? (.char letter) = some c ∧
        writeChar ascii c = ['\\', letter]) ∨
      writeChar ascii c = charEscape c ∨
      (c ≠ '"' ∧ c ≠ '\\' ∧ 32 ≤ c.toNat ∧ writeChar ascii c = [c]) := by
  by_cases hnamed : c ∈ ['"', '\\', '\n', '\r', '\t', '\x08', '\x0c']
  · left
    simp only [List.mem_cons, List.not_mem_nil, or_false] at hnamed
    rcases hnamed with rfl | rfl | rfl | rfl | rfl | rfl | rfl
    · exact ⟨'"', by decide, rfl, rfl⟩
    · exact ⟨'\\', by decide, rfl, rfl⟩
    · exact ⟨'n', by decide, rfl, rfl⟩
    · exact ⟨'r', by decide, rfl, rfl⟩
    · exact ⟨'t', by decide, rfl, rfl⟩
    · exact ⟨'b', by decide, rfl, rfl⟩
    · exact ⟨'f', by decide, rfl, rfl⟩
  · right
    simp only [List.mem_cons, List.not_mem_nil, or_false, not_or] at hnamed
    obtain ⟨hquote, hslash, hnewline, hreturn, htab, hback, hfeed⟩ := hnamed
    simp only [writeChar, if_neg hquote, if_neg hslash, if_neg hnewline, if_neg hreturn,
      if_neg htab, if_neg hback, if_neg hfeed]
    by_cases hcontrol : c.toNat < 32
    · left
      have hsmall : c.toNat < 0x10000 := by omega
      rw [if_pos hcontrol, charEscape, if_pos hsmall]
    · rw [if_neg hcontrol]
      split
      · exact .inl rfl
      · exact .inr ⟨hquote, hslash, Nat.le_of_not_lt hcontrol, rfl⟩

namespace SpellsText

variable {s piece : List CodePoint}

theorem unitEscape_char (c : Char) (hc : c.toNat < 65536) (h : SpellsText s piece) :
    SpellsText (.char c :: s) ((unitEscape c.toNat).map .char ++ piece) := by
  have hunit := h.unit (hexFour?_hexDigits hc) fun hhigh => by
    rw [(not_half_of_char c).1] at hhigh
    cases hhigh
  simpa [unitEscape, hexDigits_four, unitPoint_char] using hunit

theorem charEscape (c : Char) (h : SpellsText s piece) :
    SpellsText (.char c :: s) ((Json.charEscape c).map .char ++ piece) := by
  unfold Json.charEscape
  split
  · next hc => exact h.unitEscape_char c hc
  · next hc =>
    have hvalid : c.toNat < 0xD800 ∨ 0xDFFF < c.toNat ∧ c.toNat < 0x110000 := c.valid
    have hhigh : isHighHalf (0xD800 + (c.toNat - 0x10000) / 0x400) = true := by
      simp only [isHighHalf, Bool.and_eq_true, decide_eq_true_eq]
      omega
    have hlow : isLowHalf (0xDC00 + (c.toNat - 0x10000) % 0x400) = true := by
      simp only [isLowHalf, Bool.and_eq_true, decide_eq_true_eq]
      omega
    have hpair := h.pair (hexFour?_hexDigits (by omega)) hhigh (hexFour?_hexDigits (by omega)) hlow
    have hpoint : pairPoint (0xD800 + (c.toNat - 0x10000) / 0x400)
        (0xDC00 + (c.toNat - 0x10000) % 0x400) = .char c := by
      rw [pairPoint, show 0x10000 + (0xD800 + (c.toNat - 0x10000) / 0x400 - 0xD800) * 0x400 +
        (0xDC00 + (c.toNat - 0x10000) % 0x400 - 0xDC00) = c.toNat by omega, Char.ofNat_toNat]
    rw [hpoint] at hpair
    simpa [unitEscape, hexDigits_four] using hpair

/-- A written character spells the character. -/
theorem writeChar (ascii : Bool) (c : Char) (h : SpellsText s piece) :
    SpellsText (.char c :: s) ((Json.writeChar ascii c).map .char ++ piece) := by
  rcases writeChar_cases ascii c with
    ⟨letter, -, hletter, hwrite⟩ | hwrite | ⟨hquote, hslash, hlow, hwrite⟩
  · rw [hwrite]
    exact h.escape hletter
  · rw [hwrite]
    exact h.charEscape c
  · rw [hwrite]
    apply h.plain
    · simpa using hquote
    · simpa using hslash
    · simpa [isControl] using hlow

end SpellsText

theorem spellsText_writeChars (ascii : Bool) (cs : List Char) :
    SpellsText (cs.map .char) ((cs.flatMap (writeChar ascii) ++ ['"']).map .char) := by
  induction cs with
  | nil => exact .quote
  | cons c cs ih =>
      have hc := ih.writeChar ascii c
      simpa using hc

/-- A written text is its quote and a piece that spells the text. -/
theorem writeText_eq (ascii : Bool) (cs : List Char) :
    ∃ piece, (writeText ascii cs).map .char = .char '"' :: piece ∧
      SpellsText (cs.map .char) piece :=
  ⟨_, rfl, spellsText_writeChars ascii cs⟩

/-- What lacks nothing consists of characters. -/
theorem exists_eq_map_of_unpairedFrom {points : List CodePoint} {position : Nat}
    (h : Text.unpairedFrom (fun _ => false) position points = none) :
    ∃ cs : List Char, points = cs.map .char := by
  induction points generalizing position with
  | nil => exact ⟨[], rfl⟩
  | cons p rest ih =>
      cases p with
      | surrogate n => cases h
      | char c =>
          obtain ⟨cs, rfl⟩ := ih h
          exact ⟨c :: cs, rfl⟩

/-- A text is written without escapes for lone halves only if it has none, and then like any other
text. -/
theorem writeBroken_eq_ok {points : List CodePoint} {cs : List Char}
    (h : writeBroken false points = .ok cs) :
    ∃ chars : List Char, points = chars.map .char ∧ cs = writeText false chars := by
  unfold writeBroken at h
  cases hunpaired : Text.unpaired? (.char '"' :: points) with
  | some fault => simp [hunpaired] at h
  | none =>
      obtain ⟨chars, rfl⟩ := exists_eq_map_of_unpairedFrom
        (show Text.unpairedFrom (fun _ => false) 1 points = none from hunpaired)
      refine ⟨chars, rfl, ?_⟩
      simp only [hunpaired, Except.ok.injEq] at h
      rw [← h, writeText, List.flatMap_map]
      rfl

end UsageReport.Json
