/-
Plain texts: those that stand between quotes as they are.  They are exactly the texts that reading
gives back unchanged, and exactly those that writing leaves unchanged, for every escape is longer
than what it stands for.
-/
import UsageReport.Proofs.Json.WrittenText
import UsageReport.Provider.Name

namespace UsageReport

open Text (CodePoint)

/-- What is plain needs no escape. -/
theorem unescaped_of_isPlain {p : CodePoint} (hp : isPlain p = true) :
    p ≠ .char '"' ∧ p ≠ .char '\\' ∧ Json.isControl p = false := by
  refine ⟨?_, ?_, ?_⟩
  · rintro rfl
    cases hp
  · rintro rfl
    cases hp
  · cases p with
    | surrogate n => rfl
    | char c =>
        simp only [isPlain, Bool.and_eq_true, decide_eq_true_eq] at hp
        simpa [Json.isControl] using hp.2

theorem isPlain_of_unescaped {p : CodePoint} (hquote : p ≠ .char '"') (hslash : p ≠ .char '\\')
    (hcontrol : Json.isControl p = false) : isPlain p = true := by
  cases p with
  | surrogate n => rfl
  | char c =>
      have hlow : 32 ≤ c.toNat := by simpa [Json.isControl] using hcontrol
      simp only [isPlain, Bool.and_eq_true, bne_iff_ne, decide_eq_true_eq]
      exact ⟨⟨fun h => hquote (h ▸ rfl), fun h => hslash (h ▸ rfl)⟩, hlow⟩

/-- A text that needs no escape spells itself. -/
theorem spellsText_of_plain {points : List CodePoint} (h : points.all isPlain = true) :
    Json.SpellsText points (points ++ [.char '"']) := by
  induction points with
  | nil => exact .quote
  | cons p rest ih =>
      rw [List.all_cons, Bool.and_eq_true] at h
      obtain ⟨hquote, hslash, hcontrol⟩ := unescaped_of_isPlain h.1
      exact .plain hquote hslash hcontrol (ih h.2)

theorem isQuoted_of_plain {points : List CodePoint} (h : points.all isPlain = true) :
    Json.IsQuoted (points ++ [.char '"']) := by
  induction points with
  | nil => exact .close
  | cons p rest ih =>
      rw [List.all_cons, Bool.and_eq_true] at h
      obtain ⟨hquote, hslash, hcontrol⟩ := unescaped_of_isPlain h.1
      exact .plain hquote hslash hcontrol (ih h.2)

namespace Json

/-- A text between quotes, as it is. -/
def inQuotes (points : List CodePoint) : List CodePoint := .char '"' :: points ++ [.char '"']

/-! ### Reading -/

theorem readUnit_length {fromU afterU rest : List CodePoint} {point : CodePoint}
    (h : readUnit fromU afterU = .ok (point, rest)) : rest.length < afterU.length := by
  have hdigits {cs more : List CodePoint} {n : Nat} (hhex : readHex? cs = some (n, more)) :
      more.length + 4 = cs.length := by
    obtain ⟨a, b, c, d, rfl, -, -⟩ := readHex?_eq_some hhex
    rfl
  obtain ⟨n, unitRest, hhex, hpair | ⟨rfl, -, -⟩⟩ := readUnit_eq_ok h
  · obtain ⟨-, more, low, rfl, hlow, -⟩ := hpair
    have hhigh := hdigits hhex
    have hlow := hdigits hlow
    simp only [List.length_cons] at hhigh
    omega
  · have hhigh := hdigits hhex
    omega

/-- What is read of a text is no longer than how it is spelled, and just as long only if it is
spelled as it is. -/
theorem readText_length {start done cs s rest : List CodePoint} {fuel : Nat}
    (h : readText start fuel done cs = .ok (s, rest)) :
    ∃ t, s = done.reverse ++ t ∧ t.length + rest.length < cs.length ∧
      (t.length + rest.length + 1 = cs.length →
        t.all isPlain = true ∧ cs = t ++ .char '"' :: rest) := by
  fun_induction readText start fuel done cs with
  | case1 => cases h
  | case2 => cases h
  | case3 fuel done rest' =>
      cases h
      exact ⟨[], by simp, by simp, fun _ => ⟨rfl, rfl⟩⟩
  | case4 => cases h
  | case5 fuel done more e hne hunit =>
      rw [hunit] at h
      cases h
  | case6 fuel done more point after hne hunit ih =>
      rw [hunit] at h
      obtain ⟨t, rfl, hlength, -⟩ := ih h
      have hshorter := readUnit_length hunit
      refine ⟨point :: t, by simp, ?_, fun heq => ?_⟩
      · simp only [List.length_cons]
        omega
      · simp only [List.length_cons] at heq
        omega
  | case7 fuel done e more hu x he hne ih =>
      obtain ⟨t, rfl, hlength, -⟩ := ih h
      refine ⟨.char x :: t, by simp, ?_, fun heq => ?_⟩
      · simp only [List.length_cons]
        omega
      · simp only [List.length_cons] at heq
        omega
  | case8 => cases h
  | case9 => cases h
  | case10 fuel done p more hquote hslash hcontrol ih =>
      obtain ⟨t, rfl, hlength, hequal⟩ := ih h
      refine ⟨p :: t, by simp, ?_, fun heq => ?_⟩
      · simp only [List.length_cons]
        omega
      · simp only [List.length_cons] at heq
        obtain ⟨hplain, rfl⟩ := hequal (by omega)
        have hp := isPlain_of_unescaped hquote hslash (Bool.eq_false_iff.mpr hcontrol)
        exact ⟨by rw [List.all_cons, hp, hplain]; rfl, rfl⟩

/-- A text between quotes is read as a text, if it is read at all. -/
theorem read_inQuotes {points : List CodePoint} {d : Document}
    (h : read (inQuotes points) = .ok d) :
    ∃ s rest start fuel, d = .text s ∧
      readText start fuel [] (points ++ [.char '"']) = .ok (s, rest) := by
  have hskip : skipSpace (inQuotes points) = inQuotes points := skipSpace_cons rfl _
  unfold read at h
  split at h
  · cases h
  · rw [hskip, inQuotes, List.cons_append, readDocument] at h
    split at h
    · cases h
    · next d' rest hread =>
      split at hread
      · cases hread
      · next s rest' htext =>
        cases hread
        split at h
        · cases h
          exact ⟨s, rest, _, _, rfl, htext⟩
        · cases h

/-- Reading gives a text back as it stands between quotes exactly if it is plain. -/
theorem read_inQuotes_eq_iff {points : List CodePoint} :
    (∃ d, read (inQuotes points) = .ok d ∧ (d.toValue == Value.ofPoints points) = true) ↔
      points.all isPlain = true := by
  constructor
  · rintro ⟨d, hread, hequal⟩
    obtain ⟨s, rest, start, fuel, rfl, htext⟩ := read_inQuotes hread
    rw [Value.beq_ofPoints_iff, Document.toValue, Value.ofPoints_inj] at hequal
    obtain ⟨t, hs, hlength, hplain⟩ := readText_length htext
    rw [List.reverse_nil, List.nil_append] at hs
    subst hs hequal
    simp only [List.length_append, List.length_singleton] at hlength hplain
    exact (hplain (by omega)).1
  · intro hplain
    refine ⟨.text points, read_eq_ok_iff.mpr ⟨[], inQuotes points, [], by simp, blank_nil,
      blank_nil, Spells.text (spellsText_of_plain hplain)⟩, ?_⟩
    rw [Value.beq_ofPoints_iff, Document.toValue]

/-! ### Writing -/

theorem length_writePoint (p : CodePoint) : 1 ≤ (writePoint p).length := by
  cases p with
  | surrogate n => exact Nat.le_refl 1
  | char c =>
      rw [writePoint, List.length_map]
      rcases writeChar_cases false c with ⟨letter, -, -, hwrite⟩ | hwrite | ⟨-, -, -, hwrite⟩
      · rw [hwrite]
        exact Nat.le_succ 1
      · rw [hwrite, charEscape]
        split <;> simp [unitEscape]
      · rw [hwrite]
        exact Nat.le_refl 1

/-- A character that is no control character, quote or backslash is written as it is. -/
theorem writeChar_of_plain {c : Char} (hquote : c ≠ '"') (hslash : c ≠ '\\')
    (hlow : 32 ≤ c.toNat) : writeChar false c = [c] := by
  have hne {control : Char} (hcontrol : control.toNat < 32) : c ≠ control := by
    rintro rfl
    omega
  rw [writeChar, if_neg hquote, if_neg hslash, if_neg (hne (by decide)), if_neg (hne (by decide)),
    if_neg (hne (by decide)), if_neg (hne (by decide)), if_neg (hne (by decide)),
    if_neg (Nat.not_lt.mpr hlow)]
  rfl

/-- Only what is plain is written as it is. -/
theorem writePoint_eq_iff {p : CodePoint} : writePoint p = [p] ↔ isPlain p = true := by
  cases p with
  | surrogate n => exact iff_of_true rfl rfl
  | char c =>
      constructor
      · intro hself
        rcases writeChar_cases false c with
          ⟨letter, -, -, hwrite⟩ | hwrite | ⟨hquote, hslash, hlow, -⟩
        · simp [writePoint, hwrite] at hself
        · have hlength := congrArg List.length hself
          rw [writePoint, hwrite, charEscape] at hlength
          split at hlength <;> simp [unitEscape] at hlength
        · simp [isPlain, hquote, hslash, hlow]
      · intro hplain
        simp only [isPlain, Bool.and_eq_true, bne_iff_ne, decide_eq_true_eq] at hplain
        obtain ⟨⟨hquote, hslash⟩, hlow⟩ := hplain
        rw [writePoint, writeChar_of_plain hquote hslash hlow]
        rfl

/-- Nothing is lost in writing, so what is written no longer than it is, is written as it is. -/
theorem flatMap_writePoint_eq_iff {points : List CodePoint} :
    points.flatMap writePoint = points ↔ points.all isPlain = true := by
  have hlonger (points : List CodePoint) : points.length ≤ (points.flatMap writePoint).length := by
    induction points with
    | nil => exact Nat.le_refl 0
    | cons p rest ih =>
        have hp := length_writePoint p
        rw [List.flatMap_cons, List.length_append, List.length_cons]
        omega
  induction points with
  | nil => simp
  | cons p rest ih =>
      rw [List.flatMap_cons, List.all_cons, Bool.and_eq_true, ← writePoint_eq_iff]
      constructor
      · intro heq
        have hlength := congrArg List.length heq
        have hp := length_writePoint p
        have hrest := hlonger rest
        rw [List.length_append, List.length_cons] at hlength
        have hsplit : writePoint p ++ rest.flatMap writePoint = [p] ++ rest := heq
        obtain ⟨hself, hothers⟩ := List.append_inj hsplit (by rw [List.length_singleton]; omega)
        exact ⟨hself, ih.mp hothers⟩
      · rintro ⟨hself, hothers⟩
        rw [hself, ih.mpr hothers]
        rfl

/-- Writing leaves a text as it stands between quotes exactly if it is plain. -/
theorem writePoints_eq_iff {points : List CodePoint} :
    writePoints points = inQuotes points ↔ points.all isPlain = true := by
  rw [← flatMap_writePoint_eq_iff, writePoints, inQuotes, List.cons_append, List.cons_append,
    List.cons.injEq, List.append_left_inj]
  exact and_iff_right rfl

end Json

end UsageReport
