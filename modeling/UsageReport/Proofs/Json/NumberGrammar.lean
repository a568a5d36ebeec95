/-
Numbers as the grammar has them.  The reader takes off the front of a text what the grammar calls
a number, part by part, and reads every number of the grammar to its end.
-/
import Mathlib.Data.List.TakeWhile
import Mathlib.Tactic.ByContra
import UsageReport.Json.Grammar

namespace UsageReport.Json

open Text (CodePoint)

/-! ### What is read is a number -/

theorem spanDigits_spelled {cs ds rest : List Char} (h : spanDigits cs = (ds, rest)) :
    cs = ds ++ rest ∧ ∀ c ∈ ds, c.isDigit = true := by
  cases h
  exact ⟨List.takeWhile_append_dropWhile.symm, fun c hc => by simpa using List.mem_takeWhile_imp hc⟩

theorem readWhole_spelled {cs whole rest : List Char} (h : readWhole cs = some (whole, rest)) :
    cs = whole ++ rest ∧ IsWhole whole := by
  unfold readWhole at h
  split at h
  · cases h
    exact ⟨rfl, .zero⟩
  · next hzero =>
    split at h
    · cases h
    · next ds more hnone hspan =>
      cases h
      obtain ⟨hcs, hdigits⟩ := spanDigits_spelled hspan
      refine ⟨hcs, ?_⟩
      cases whole with
      | nil => exact absurd rfl hnone
      | cons c tail =>
          rw [List.forall_mem_cons] at hdigits
          refine .digits hdigits.1 ?_ hdigits.2
          rintro rfl
          exact hzero _ hcs

theorem readFraction_spelled {cs rest : List Char} {fraction : Option (List Char)}
    (h : readFraction cs = (fraction, rest)) :
    ∃ spelled, cs = spelled ++ rest ∧ IsFraction spelled ∧ (spelled = [] ↔ fraction = none) := by
  unfold readFraction at h
  split at h
  · next inside =>
    split at h
    · cases h
      exact ⟨[], rfl, .none, by simp⟩
    · next ds more hnone hspan =>
      cases h
      obtain ⟨rfl, hdigits⟩ := spanDigits_spelled hspan
      exact ⟨'.' :: ds, rfl, .some ⟨hnone, hdigits⟩, by simp⟩
  · cases h
    exact ⟨[], rfl, .none, by simp⟩

theorem readExponent_spelled {cs rest : List Char} {exponent : Option (Bool × List Char)}
    (h : readExponent cs = (exponent, rest)) :
    ∃ spelled, cs = spelled ++ rest ∧ IsExponent spelled ∧ (spelled = [] ↔ exponent = none) := by
  unfold readExponent at h
  split at h
  · next mark inside =>
    split at h
    · next hmark =>
      split at h
      next negative unsigned hsign =>
        have hsigned : ∃ sign ∈ [[], ['-'], ['+']], inside = sign ++ unsigned := by
          split at hsign <;> cases hsign
          · exact ⟨['-'], by simp, rfl⟩
          · exact ⟨['+'], by simp, rfl⟩
          · exact ⟨[], by simp, rfl⟩
        obtain ⟨sign, hmem, rfl⟩ := hsigned
        split at h
        · cases h
          exact ⟨[], rfl, .none, by simp⟩
        · next ds more hnone hspan =>
          cases h
          obtain ⟨rfl, hdigits⟩ := spanDigits_spelled hspan
          exact ⟨mark :: sign ++ ds, by simp, .some hmark hmem ⟨hnone, hdigits⟩, by simp⟩
    · cases h
      exact ⟨[], rfl, .none, by simp⟩
  · cases h
    exact ⟨[], rfl, .none, by simp⟩

/-- A whole number that stands for a document has no more digits than are read. -/
theorem Numeral.length_le_of_document {n : Numeral} {d : Document} (h : n.document = .ok d)
    (hfraction : n.fraction = none) (hexponent : n.exponent = none) :
    n.whole.length ≤ digitLimit := by
  by_contra hlong
  simp [Numeral.document, hfraction, hexponent, Nat.lt_of_not_le hlong] at h

/-- What the reader takes for a number is one, if it stands for a document. -/
theorem readNumeral?_spelled {cs rest : List Char} {n : Numeral} {d : Document}
    (h : readNumeral? cs = some (n, rest)) (hd : n.document = .ok d) :
    ∃ spelled, cs = spelled ++ rest ∧ IsNumber spelled := by
  unfold readNumeral? at h
  split at h
  next negative unsigned hsign =>
    have hsigned : ∃ sign ∈ [[], ['-']], cs = sign ++ unsigned := by
      split at hsign <;> cases hsign
      · exact ⟨['-'], by simp, rfl⟩
      · exact ⟨[], by simp, rfl⟩
    obtain ⟨sign, hmem, rfl⟩ := hsigned
    obtain ⟨⟨whole, afterWhole⟩, hwhole, hrest⟩ := Option.bind_eq_some_iff.mp h
    obtain ⟨rfl, hisWhole⟩ := readWhole_spelled hwhole
    rcases hfraction : readFraction afterWhole with ⟨fraction?, afterFraction⟩
    rcases hexponent : readExponent afterFraction with ⟨exponent?, afterExponent⟩
    simp only [hfraction, hexponent] at hrest
    cases hrest
    obtain ⟨fraction, rfl, hisFraction, hnoFraction⟩ := readFraction_spelled hfraction
    obtain ⟨exponent, rfl, hisExponent, hnoExponent⟩ := readExponent_spelled hexponent
    refine ⟨sign ++ whole ++ fraction ++ exponent, by simp, .parts hmem hisWhole hisFraction
      hisExponent fun hno hno' => ?_⟩
    exact Numeral.length_le_of_document hd (hnoFraction.mp hno) (hnoExponent.mp hno')

/-! ### A number is read to its end -/

/-- The text goes on with no digit. -/
def NoDigit (cs : List Char) : Prop := ∀ c more, cs = c :: more → c.isDigit = false

theorem spanDigits_append {ds more : List Char} (hds : ∀ c ∈ ds, c.isDigit = true)
    (hmore : NoDigit more) : spanDigits (ds ++ more) = (ds, more) := by
  induction ds with
  | nil =>
      cases more with
      | nil => rfl
      | cons c rest => simp [spanDigits, hmore c rest rfl]
  | cons d ds ih =>
      rw [List.forall_mem_cons] at hds
      have hrest := ih hds.2
      simp only [spanDigits, Prod.mk.injEq] at hrest ⊢
      rw [List.cons_append, List.takeWhile_cons_of_pos hds.1, List.dropWhile_cons_of_pos hds.1,
        hrest.1, hrest.2]
      exact ⟨rfl, rfl⟩

/-- Digits that nothing follows are all taken. -/
theorem spanDigits_of_all {ds : List Char} (h : ∀ c ∈ ds, c.isDigit = true) :
    spanDigits ds = (ds, []) := by
  rw [spanDigits, List.takeWhile_eq_self_iff.mpr h, List.dropWhile_eq_nil_iff.mpr h]

theorem noDigit_exponent {exponent : List Char} (h : IsExponent exponent) : NoDigit exponent := by
  intro c more heq
  cases h with
  | none => cases heq
  | some hmark hsign hdigits =>
      cases heq
      rcases hmark with rfl | rfl <;> rfl

theorem noDigit_fraction {fraction exponent : List Char} (h : IsFraction fraction)
    (h' : IsExponent exponent) : NoDigit (fraction ++ exponent) := by
  cases h with
  | none => exact noDigit_exponent h'
  | some hdigits =>
      intro c more heq
      cases heq
      rfl

theorem readWhole_append {whole more : List Char} (h : IsWhole whole) (hmore : NoDigit more) :
    readWhole (whole ++ more) = some (whole, more) := by
  cases h with
  | zero => rfl
  | digits hc hzero hrest =>
      rename_i c rest
      have hspan := spanDigits_append (List.forall_mem_cons.mpr ⟨hc, hrest⟩) hmore
      unfold readWhole
      split
      · next heq => exact absurd (List.cons.inj heq).1 hzero
      · rw [hspan]

theorem readFraction_append {fraction more : List Char} (h : IsFraction fraction)
    (hmore : IsExponent more) :
    ∃ answer, readFraction (fraction ++ more) = (answer, more) ∧
      (answer = none ↔ fraction = []) := by
  cases h with
  | none =>
      refine ⟨none, ?_, by simp⟩
      cases hmore with
      | none => rfl
      | some hmark hsign hdigits => rcases hmark with rfl | rfl <;> rfl
  | some hdigits =>
      rename_i ds
      refine ⟨some ds, ?_, by simp⟩
      rw [List.cons_append, readFraction, spanDigits_append hdigits.2 (noDigit_exponent hmore)]
      split
      · next heq => exact absurd (congrArg Prod.fst heq) hdigits.1
      · next heq =>
        cases heq
        rfl

theorem readExponent_eq {exponent : List Char} (h : IsExponent exponent) :
    ∃ answer, readExponent exponent = (answer, []) ∧ (answer = none ↔ exponent = []) := by
  cases h with
  | none => exact ⟨none, rfl, by simp⟩
  | some hmark hsign hdigits =>
      rename_i mark sign ds
      have hspan := spanDigits_of_all hdigits.2
      obtain ⟨d, rest, rfl⟩ := List.exists_cons_of_ne_nil hdigits.1
      -- A digit is no sign, so an exponent without one is not cut short.
      have hplain {c : Char} (hc : c.isDigit = false) : d ≠ c := by
        rintro rfl
        rw [hdigits.2 d List.mem_cons_self] at hc
        cases hc
      have hminus : d ≠ '-' := hplain rfl
      have hplus : d ≠ '+' := hplain rfl
      simp only [List.mem_cons, List.not_mem_nil, or_false] at hsign
      rcases hsign with rfl | rfl | rfl
      · exact ⟨some (false, d :: rest), by simp [readExponent, hmark, hspan, hminus, hplus],
          by simp⟩
      · exact ⟨some (true, d :: rest), by simp [readExponent, hmark, hspan], by simp⟩
      · exact ⟨some (false, d :: rest), by simp [readExponent, hmark, hspan], by simp⟩

theorem IsWhole.digits_only {whole : List Char} (h : IsWhole whole) : IsDigits whole := by
  cases h with
  | zero => exact ⟨List.cons_ne_nil _ _, List.forall_mem_singleton.mpr rfl⟩
  | digits hc hzero hrest =>
      exact ⟨List.cons_ne_nil _ _, List.forall_mem_cons.mpr ⟨hc, hrest⟩⟩

/-- A number without a fraction and an exponent stands for a document if it is not too long;
any other one stands for a document in any case. -/
theorem Numeral.exists_document {n : Numeral}
    (h : n.fraction = none → n.exponent = none → n.whole.length ≤ digitLimit) :
    ∃ d, n.document = .ok d := by
  obtain ⟨negative, whole, fraction, exponent⟩ := n
  cases fraction with
  | some ds => exact ⟨_, rfl⟩
  | none =>
      cases exponent with
      | some power => exact ⟨_, rfl⟩
      | none =>
          have hsize : ¬digitLimit < whole.length := Nat.not_lt.mpr (h rfl rfl)
          exact ⟨_, if_neg hsize⟩

/-- A number of the grammar is read to its end and stands for a document. -/
theorem readNumeral?_of_isNumber {cs : List Char} (h : IsNumber cs) :
    ∃ n d, readNumeral? cs = some (n, []) ∧ n.document = .ok d := by
  cases h with
  | parts hsign hwhole hfraction hexponent hsize =>
      rename_i sign whole fraction exponent
      have hreadWhole := readWhole_append hwhole (noDigit_fraction hfraction hexponent)
      obtain ⟨fraction?, hreadFraction, hnoFraction⟩ := readFraction_append hfraction hexponent
      obtain ⟨exponent?, hreadExponent, hnoExponent⟩ := readExponent_eq hexponent
      have hdocument (negative : Bool) :
          ∃ d, Numeral.document ⟨negative, whole, fraction?, exponent?⟩ = .ok d :=
        Numeral.exists_document fun hno hno' => hsize (hnoFraction.mp hno) (hnoExponent.mp hno')
      simp only [List.mem_cons, List.not_mem_nil, or_false] at hsign
      rcases hsign with rfl | rfl
      · obtain ⟨d, hd⟩ := hdocument false
        obtain ⟨c, more, rfl⟩ := List.exists_cons_of_ne_nil hwhole.digits_only.1
        have hminus : c ≠ '-' := by
          rintro rfl
          cases hwhole.digits_only.2 '-' List.mem_cons_self
        refine ⟨_, d, ?_, hd⟩
        simp only [List.cons_append] at hreadWhole
        simp [readNumeral?, hminus, hreadWhole, hreadFraction, hreadExponent]
      · obtain ⟨d, hd⟩ := hdocument true
        refine ⟨_, d, ?_, hd⟩
        simp [readNumeral?, hreadWhole, hreadFraction, hreadExponent]

theorem isNumeric_of_isDigit {c : Char} (h : c.isDigit = true) : isNumeric c = true := by
  simp [isNumeric, h]

/-- A number consists of characters that may stand in one. -/
theorem isNumeric_of_isNumber {cs : List Char} (h : IsNumber cs) :
    ∀ c ∈ cs, isNumeric c = true := by
  cases h with
  | parts hsign hwhole hfraction hexponent hsize =>
      simp only [List.mem_append, or_imp, forall_and]
      refine ⟨⟨⟨?_, ?_⟩, ?_⟩, ?_⟩
      · simp only [List.mem_cons, List.not_mem_nil, or_false] at hsign
        rcases hsign with rfl | rfl <;> simp [isNumeric]
      · exact fun c hc => isNumeric_of_isDigit (hwhole.digits_only.2 c hc)
      · cases hfraction with
        | none => simp
        | some hdigits =>
            exact List.forall_mem_cons.mpr
              ⟨rfl, fun c hc => isNumeric_of_isDigit (hdigits.2 c hc)⟩
      · cases hexponent with
        | none => simp
        | some hmark hsign hdigits =>
            rw [List.cons_append, List.forall_mem_cons, List.forall_mem_append]
            refine ⟨?_, ?_, fun c hc => isNumeric_of_isDigit (hdigits.2 c hc)⟩
            · rcases hmark with rfl | rfl <;> rfl
            · simp only [List.mem_cons, List.not_mem_nil, or_false] at hsign
              rcases hsign with rfl | rfl | rfl <;> simp [isNumeric]

end UsageReport.Json
