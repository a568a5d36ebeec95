/-
Numbers that are written spell themselves.  A whole number is read digit by digit into the same
size.  A floating-point number is taken to come back from its text where that is asked for; its
text has no space in it, so it comes back wherever it stands.
-/
import UsageReport.Json.Writer
import UsageReport.Proofs.Json.Spelling

namespace UsageReport.Json

open Text (CodePoint)
open Decimal (digitChars)

/-! ### Whole numbers -/

theorem isDigit_of_mem_digitChars {n : Nat} {c : Char} (h : c ∈ digitChars n) :
    c.isDigit = true :=
  Nat.isDigit_of_mem_toDigits (by decide) (by decide) h

theorem digitsValue_digitChars (n : Nat) : digitsValue (digitChars n) = n := by
  have hvalue : Nat.ofDigitChars 10 (digitChars n) 0 = n := Nat.ofDigitChars_ten_toDigits
  simp only [Nat.ofDigitChars, Nat.mul_comm 10] at hvalue
  exact hvalue

theorem digitChar_ne_zero : ∀ n, n < 10 → 0 < n → n.digitChar ≠ '0' := by decide

/-- A positive number does not begin with a zero. -/
theorem digitChars_head {n : Nat} (hn : 0 < n) :
    ∃ c rest, digitChars n = c :: rest ∧ c ≠ '0' := by
  induction n using Nat.strongRecOn with
  | ind n ih =>
      by_cases hsmall : n < 10
      · exact ⟨n.digitChar, [], Nat.toDigits_of_lt_base hsmall, digitChar_ne_zero n hsmall hn⟩
      · obtain ⟨c, rest, hdigits, hc⟩ := ih (n / 10) (by omega) (by omega)
        refine ⟨c, rest ++ [(n % 10).digitChar], ?_, hc⟩
        rw [digitChars, Nat.toDigits_eq_if (by decide), if_neg hsmall, ← List.cons_append,
          ← hdigits, digitChars]

theorem readWhole_digitChars (n : Nat) : readWhole (digitChars n) = some (digitChars n, []) := by
  rcases Nat.eq_zero_or_pos n with rfl | hn
  · rfl
  · have hspan := spanDigits_of_all fun c (hc : c ∈ digitChars n) => isDigit_of_mem_digitChars hc
    obtain ⟨c, rest, hdigits, hzero⟩ := digitChars_head hn
    rw [hdigits] at hspan ⊢
    rw [readWhole, hspan]
    rintro _ heq
    exact hzero (List.cons.inj heq).1

theorem readNumeral?_digitChars (n : Nat) :
    readNumeral? (digitChars n) = some (⟨false, digitChars n, none, none⟩, []) ∧
      readNumeral? ('-' :: digitChars n) = some (⟨true, digitChars n, none, none⟩, []) := by
  have hwhole := readWhole_digitChars n
  constructor
  · have hsign (more : List Char) : digitChars n ≠ '-' :: more := by
      intro heq
      have hdigit := isDigit_of_mem_digitChars (n := n) (heq ▸ List.mem_cons_self)
      cases hdigit
    unfold readNumeral?
    split
    next negative unsigned hmatch =>
      split at hmatch
      · next more heq => exact absurd heq (hsign more)
      · cases hmatch
        simp [hwhole, readFraction, readExponent]
  · simp [readNumeral?, hwhole, readFraction, readExponent]

/-- A written whole number spells the number. -/
theorem spells_writeInt {n : Int} {cs : List Char} (h : writeInt n = .ok cs) :
    Spells (.int n) (cs.map .char) := by
  simp only [writeInt] at h
  by_cases hlimit : digitLimit < (digitChars n.natAbs).length
  · rw [if_pos hlimit] at h
    cases h
  · rw [if_neg hlimit] at h
    cases h
    have hnumeric : ∀ c ∈ digitChars n.natAbs, isNumeric c = true := fun c hc => by
      simp [isNumeric, isDigit_of_mem_digitChars hc]
    obtain ⟨hpositive, hnegative⟩ := readNumeral?_digitChars n.natAbs
    by_cases hsign : n < 0
    · rw [if_pos hsign]
      refine Spells.number (List.forall_mem_cons.mpr ⟨rfl, hnumeric⟩) hnegative ?_
      simp only [Numeral.document, if_neg hlimit, digitsValue_digitChars, if_true, Except.ok.injEq,
        Document.int.injEq]
      omega
    · rw [if_neg hsign]
      refine Spells.number hnumeric hpositive ?_
      simp only [Numeral.document, if_neg hlimit, digitsValue_digitChars, Bool.false_eq_true,
        if_false, Except.ok.injEq, Document.int.injEq]
      omega

/-! ### Floating-point numbers -/

/-- Only characters that show: no space, no line end, nothing that controls. -/
def Shows (cs : List Char) : Prop := ∀ c ∈ cs, 32 < c.toNat

instance (cs : List Char) : Decidable (Shows cs) :=
  decidable_of_iff (cs.all fun c => 32 < c.toNat) (by simp [Shows])

theorem Shows.append {cs ds : List Char} (hcs : Shows cs) (hds : Shows ds) : Shows (cs ++ ds) :=
  List.forall_mem_append.mpr ⟨hcs, hds⟩

theorem Shows.cons {c : Char} {cs : List Char} (hc : 32 < c.toNat) (hcs : Shows cs) :
    Shows (c :: cs) := List.forall_mem_cons.mpr ⟨hc, hcs⟩

theorem Shows.sublist {cs ds : List Char} (h : Shows ds) (hsub : cs ⊆ ds) : Shows cs :=
  fun c hc => h c (hsub hc)

theorem shows_zeros (n : Nat) : Shows (List.replicate n '0') :=
  fun _ hc => List.eq_of_mem_replicate hc ▸ by decide

theorem shows_digitChars (n : Nat) : Shows (digitChars n) := by
  intro c hc
  have hdigit := isDigit_of_mem_digitChars hc
  simp only [Char.isDigit, Bool.and_eq_true, decide_eq_true_eq] at hdigit
  have hlow : ('0' : Char).toNat ≤ c.toNat := hdigit.1
  exact Nat.lt_of_lt_of_le (by decide) hlow

theorem shows_positional {ds : List Char} (h : Shows ds) (point : Int) :
    Shows (Decimal.positional ds point) := by
  unfold Decimal.positional
  split
  · exact .cons (by decide) (.cons (by decide) ((shows_zeros _).append h))
  · split
    · exact (h.append (shows_zeros _)).append (by decide)
    · exact (h.sublist (List.take_subset _ _)).append
        (.cons (by decide) (h.sublist (List.drop_subset _ _)))

theorem shows_scientific {ds : List Char} (h : Shows ds) (width : Nat) (power : Int) :
    Shows (Decimal.scientific width ds power) := by
  have hsign : 32 < (if power < 0 then '-' else '+').toNat := by split <;> decide
  have hpower : Shows ('e' :: (if power < 0 then '-' else '+') ::
      Decimal.padLeft width (digitChars power.natAbs)) :=
    .cons (by decide) (.cons hsign ((shows_zeros _).append (shows_digitChars _)))
  cases ds with
  | nil => exact .cons (by decide) hpower
  | cons d rest =>
      cases rest with
      | nil => exact h.append hpower
      | cons d' more =>
          obtain ⟨hd, hrest⟩ := List.forall_mem_cons.mp h
          exact .cons hd (.cons (by decide) (Shows.append hrest hpower))

/-- The text of a floating-point number has neither space nor line end in it. -/
theorem shows_ofParts (parts : Decimal.Parts) : Shows (numberLayout.ofParts parts) := by
  cases parts with
  | nan => decide
  | infinite negative => cases negative <;> decide
  | finite negative m q =>
      have hsign : Shows (if negative then ['-'] else []) := by cases negative <;> decide
      refine hsign.append ?_
      split
      · decide
      · have hdigits : Shows (Decimal.dropTrailingZeros
            (digitChars (Decimal.shortest m q).digits)) := by
          intro c hc
          have hmem := List.dropWhile_subset _ (List.mem_reverse.mp hc)
          exact shows_digitChars _ c (List.mem_reverse.mp hmem)
        simp only [Decimal.Layout.unsigned]
        split
        · exact shows_positional hdigits _
        · exact shows_scientific hdigits _ _

/-- A floating-point number is what its own text is read as. -/
def FloatSurvives (x : Float) : Prop :=
  read ((numberLayout.ofParts (Decimal.Parts.ofFloat x)).map .char) = .ok (.float x)

/-- A document that is read from a text without space is spelled by the whole of it. -/
theorem spells_of_read_shows {cs : List Char} {d : Document} (hcs : Shows cs)
    (h : read (cs.map .char) = .ok d) : Spells d (cs.map .char) := by
  obtain ⟨before, piece, after, heq, hbefore, hafter, hspells⟩ := read_eq_ok_iff.mp h
  have hnone {space : List CodePoint} (hblank : Blank space)
      (hmem : ∀ p ∈ space, p ∈ cs.map CodePoint.char) : space = [] := by
    refine List.eq_nil_iff_forall_not_mem.mpr fun p hp => ?_
    obtain ⟨c, hc, rfl⟩ := List.mem_map.mp (hmem p hp)
    have hspace := hblank _ hp
    simp only [isSpace, Bool.or_eq_true, beq_iff_eq] at hspace
    have hshows := hcs c hc
    rcases hspace with ((rfl | rfl) | rfl) | rfl <;> exact absurd hshows (by decide)
  have hnoBefore := hnone hbefore fun p hp => heq ▸ by simp [hp]
  have hnoAfter := hnone hafter fun p hp => heq ▸ by simp [hp]
  rw [heq, hnoBefore, hnoAfter, List.nil_append, List.append_nil]
  exact hspells

theorem Style.writeFloat_eq_ok {style : Style} {x : Float} {cs : List Char}
    (h : style.writeFloat x = .ok cs) : cs = numberLayout.ofParts (Decimal.Parts.ofFloat x) := by
  unfold Style.writeFloat at h
  split at h
  · next hparts =>
    cases h
    rw [hparts]
  · split at h <;> cases h
    rfl

/-- A written floating-point number spells the number, if it comes back from its text. -/
theorem Style.spells_writeFloat {style : Style} {x : Float} {cs : List Char}
    (h : style.writeFloat x = .ok cs) (hx : FloatSurvives x) :
    Spells (.float x) (cs.map .char) := by
  rw [Style.writeFloat_eq_ok h]
  exact spells_of_read_shows (shows_ofParts _) hx

end UsageReport.Json
