/-
Texts between quotes.  Reading a text takes a piece of the input off and never looks at what
follows the closing quote, so the piece spells the same text in every surrounding.  The one
place where reading looks ahead, the second half of a surrogate pair, lies inside the piece.
-/
import Mathlib.Tactic.ByContra
import UsageReport.Json.Grammar

namespace UsageReport.Json

open Text (CodePoint)

/-- The piece, closing quote included, spells the text wherever it stands. -/
def SpellsText (s piece : List CodePoint) : Prop :=
  ∀ start fuel done after, piece.length ≤ fuel →
    readText start fuel done (piece ++ after) = .ok (done.reverse ++ s, after)

theorem exists_hexFour?_iff {a b c d : CodePoint} :
    (∃ n, hexFour? a b c d = some n) ↔
      ∀ p ∈ [a, b, c, d], (hexDigit? p).isSome = true := by
  rw [← Option.isSome_iff_exists]
  simp [hexFour?, Option.isSome_bind, Option.any_eq_true_iff_get, and_left_comm]

theorem exists_simpleEscape?_iff {p : CodePoint} :
    (∃ x, simpleEscape? p = some x) ↔
      ∃ e ∈ ['"', '\\', '/', 'b', 'f', 'n', 'r', 't'], p = .char e := by
  constructor
  · rintro ⟨x, h⟩
    unfold simpleEscape? at h
    split at h
    all_goals first | exact ⟨_, by decide, rfl⟩ | cases h
  · rintro ⟨e, he, rfl⟩
    simp only [List.mem_cons, List.not_mem_nil, or_false] at he
    rcases he with rfl | rfl | rfl | rfl | rfl | rfl | rfl | rfl <;> exact ⟨_, rfl⟩

/-- What an escape that spells the second half of a pair looks like. -/
def BeginsLowHalf (cs : List CodePoint) : Prop :=
  ∃ more low rest, cs = .char '\\' :: .char 'u' :: more ∧ readHex? more = some (low, rest) ∧
    isLowHalf low = true

theorem readHex?_eq_some {cs rest : List CodePoint} {n : Nat} (h : readHex? cs = some (n, rest)) :
    ∃ a b c d, cs = a :: b :: c :: d :: rest ∧ hexFour? a b c d = some n ∧ rest ≠ [] := by
  unfold readHex? at h
  split at h
  · next a b c d next more =>
    obtain ⟨m, hm, heq⟩ := Option.map_eq_some_iff.mp h
    cases heq
    exact ⟨a, b, c, d, rfl, hm, List.cons_ne_nil _ _⟩
  · cases h

theorem readHex?_append {cs rest : List CodePoint} {n : Nat} (h : readHex? cs = some (n, rest))
    (after : List CodePoint) : readHex? (cs ++ after) = some (n, rest ++ after) := by
  obtain ⟨a, b, c, d, rfl, hfour, hrest⟩ := readHex?_eq_some h
  obtain ⟨next, more, rfl⟩ := List.exists_cons_of_ne_nil hrest
  simp [readHex?, hfour]

theorem readHex?_cons {a b c d : CodePoint} {n : Nat} (h : hexFour? a b c d = some n)
    {rest : List CodePoint} (hrest : rest ≠ []) :
    readHex? (a :: b :: c :: d :: rest) = some (n, rest) := by
  obtain ⟨next, more, rfl⟩ := List.exists_cons_of_ne_nil hrest
  simp [readHex?, h]

section ReadUnit

variable {fromU afterU rest : List CodePoint} {n : Nat}

theorem readUnit_of_not_high (hhex : readHex? afterU = some (n, rest))
    (hhigh : isHighHalf n = false) : readUnit fromU afterU = .ok (unitPoint n, rest) := by
  simp [readUnit, hhex, hhigh]

theorem readUnit_pair {more after : List CodePoint} {low : Nat}
    (hhex : readHex? afterU = some (n, .char '\\' :: .char 'u' :: more))
    (hhigh : isHighHalf n = true) (hlow : readHex? more = some (low, after))
    (hhalf : isLowHalf low = true) : readUnit fromU afterU = .ok (pairPoint n low, after) := by
  simp [readUnit, hhex, hhigh, hlow, hhalf]

/-- The first half of a pair stands alone if no second half follows.  An escape that follows
must be a whole one. -/
theorem readUnit_alone (hhex : readHex? afterU = some (n, rest))
    (hwhole : ∀ more, rest = .char '\\' :: .char 'u' :: more → readHex? more ≠ none)
    (halone : ¬BeginsLowHalf rest) : readUnit fromU afterU = .ok (unitPoint n, rest) := by
  cases hhigh : isHighHalf n with
  | false => exact readUnit_of_not_high hhex hhigh
  | true =>
      simp only [readUnit, hhex, hhigh, if_true]
      split
      · next more =>
        cases hlow : readHex? more with
        | none => exact absurd hlow (hwhole more rfl)
        | some answer =>
            obtain ⟨low, after⟩ := answer
            have hhalf : isLowHalf low = false := by
              by_contra hlowHalf
              exact halone ⟨more, low, after, rfl, hlow, by simpa using hlowHalf⟩
            simp [hhalf]
      · rfl

/-- A unit is the first half of a pair that the following escape completes, or it stands for
itself. -/
theorem readUnit_eq_ok {point : CodePoint} (h : readUnit fromU afterU = .ok (point, rest)) :
    ∃ n unitRest, readHex? afterU = some (n, unitRest) ∧
      ((isHighHalf n = true ∧ ∃ more low, unitRest = .char '\\' :: .char 'u' :: more ∧
          readHex? more = some (low, rest) ∧ isLowHalf low = true ∧ point = pairPoint n low) ∨
        (rest = unitRest ∧ point = unitPoint n ∧
          (isHighHalf n = true → ¬BeginsLowHalf rest))) := by
  unfold readUnit at h
  cases hhex : readHex? afterU with
  | none => simp [hhex] at h
  | some answer =>
      obtain ⟨n, unitRest⟩ := answer
      refine ⟨n, unitRest, rfl, ?_⟩
      simp only [hhex] at h
      split at h
      · next hhigh =>
        split at h
        · next more =>
          cases hlow : readHex? more with
          | none => simp [hlow] at h
          | some answer =>
              obtain ⟨low, after⟩ := answer
              simp only [hlow] at h
              split at h
              · next hhalf =>
                cases h
                exact Or.inl ⟨hhigh, more, low, rfl, hlow, hhalf, rfl⟩
              · next hhalf =>
                cases h
                refine Or.inr ⟨rfl, rfl, ?_⟩
                rintro - ⟨more', low', rest', heq, hlow', hhalf'⟩
                cases heq
                rw [hlow] at hlow'
                cases hlow'
                exact hhalf hhalf'
        · next hnone =>
          cases h
          refine Or.inr ⟨rfl, rfl, ?_⟩
          rintro - ⟨more, low, rest', heq, -, -⟩
          exact hnone more heq
      · next hhigh =>
        cases h
        exact Or.inr ⟨rfl, rfl, fun hhigh' => absurd hhigh' hhigh⟩

end ReadUnit

namespace SpellsText

variable {s piece : List CodePoint}

theorem quote : SpellsText [] [.char '"'] := by
  intro start fuel done after hfuel
  obtain ⟨fuel, rfl⟩ := Nat.exists_eq_add_one.mpr hfuel
  simp [readText]

/-- A code point that needs no escape spells itself. -/
theorem plain {p : CodePoint} (hquote : p ≠ .char '"') (hslash : p ≠ .char '\\')
    (hcontrol : isControl p = false) (h : SpellsText s piece) :
    SpellsText (p :: s) (p :: piece) := by
  intro start fuel done after hfuel
  obtain ⟨fuel, rfl⟩ := Nat.exists_eq_add_one.mpr (Nat.zero_lt_of_lt hfuel)
  have hrest := h start fuel (p :: done) after (Nat.le_of_succ_le_succ hfuel)
  simp [readText, hquote, hslash, hcontrol, hrest]

theorem escape {e : CodePoint} {x : Char} (he : simpleEscape? e = some x)
    (h : SpellsText s piece) : SpellsText (.char x :: s) (.char '\\' :: e :: piece) := by
  intro start fuel done after hfuel
  obtain ⟨fuel, rfl⟩ := Nat.exists_eq_add_one.mpr (Nat.zero_lt_of_lt hfuel)
  have hlength : piece.length ≤ fuel := by
    simp only [List.length_cons] at hfuel
    omega
  have hrest := h start fuel (.char x :: done) after hlength
  have hne : e ≠ .char 'u' := by
    rintro rfl
    cases he
  rw [List.cons_append, List.cons_append, readText]
  · simp [he, hrest]
  · exact hne

/-- Reading the piece takes at least its closing quote off. -/
theorem ne_nil (h : SpellsText s piece) : piece ≠ [] := by
  rintro rfl
  have hread := h [] 1 [] [] (Nat.zero_le _)
  simp [readText] at hread

/-- Where the piece goes on with an escape of a unit, the digits of that unit belong to it. -/
theorem readHex?_ne_none {more : List CodePoint}
    (h : SpellsText s (.char '\\' :: .char 'u' :: more)) : readHex? more ≠ none := by
  intro hnone
  have hread := h [] (more.length + 2) [] [] (Nat.le_refl _)
  simp [readText, readUnit, hnone] at hread

/-- A piece does not end with a backslash alone. -/
theorem exists_cons_of_slash {rest : List CodePoint}
    (h : SpellsText s (.char '\\' :: rest)) : rest ≠ [] := by
  rintro rfl
  have hread := h [] 1 [] [] (Nat.le_refl _)
  simp [readText] at hread

/-- What a piece begins with shows, whatever follows the piece. -/
theorem eq_of_append_eq_unit {after more : List CodePoint} (h : SpellsText s piece)
    (heq : piece ++ after = .char '\\' :: .char 'u' :: more) :
    ∃ inside, piece = .char '\\' :: .char 'u' :: inside ∧ more = inside ++ after := by
  obtain ⟨p, rest, rfl⟩ := List.exists_cons_of_ne_nil h.ne_nil
  rw [List.cons_append, List.cons.injEq] at heq
  obtain ⟨rfl, heq⟩ := heq
  obtain ⟨q, inside, rfl⟩ := List.exists_cons_of_ne_nil h.exists_cons_of_slash
  rw [List.cons_append, List.cons.injEq] at heq
  obtain ⟨rfl, rfl⟩ := heq
  exact ⟨inside, rfl, rfl⟩

theorem not_beginsLowHalf_append (h : SpellsText s piece) (halone : ¬BeginsLowHalf piece)
    (after : List CodePoint) : ¬BeginsLowHalf (piece ++ after) := by
  rintro ⟨more, low, rest, heq, hlow, hhalf⟩
  obtain ⟨inside, rfl, rfl⟩ := h.eq_of_append_eq_unit heq
  cases hinside : readHex? inside with
  | none => exact h.readHex?_ne_none hinside
  | some answer =>
      obtain ⟨n, rest'⟩ := answer
      have happend := readHex?_append hinside after
      rw [hlow] at happend
      cases happend
      exact halone ⟨inside, _, _, rfl, hinside, hhalf⟩

/-- An escape of a unit that is no half, or a half that stands alone. -/
theorem unit {a b c d : CodePoint} {n : Nat} (hfour : hexFour? a b c d = some n)
    (halone : isHighHalf n = true → ¬BeginsLowHalf piece) (h : SpellsText s piece) :
    SpellsText (unitPoint n :: s) (.char '\\' :: .char 'u' :: a :: b :: c :: d :: piece) := by
  intro start fuel done after hfuel
  obtain ⟨fuel, rfl⟩ := Nat.exists_eq_add_one.mpr (Nat.zero_lt_of_lt hfuel)
  have hlength : piece.length ≤ fuel := by
    simp only [List.length_cons] at hfuel
    omega
  have hrest := h start fuel (unitPoint n :: done) after hlength
  have hhex : readHex? (a :: b :: c :: d :: (piece ++ after)) = some (n, piece ++ after) :=
    readHex?_cons hfour (List.append_ne_nil_of_left_ne_nil h.ne_nil _)
  have hunit (fromU : List CodePoint) :
      readUnit fromU (a :: b :: c :: d :: (piece ++ after)) =
        .ok (unitPoint n, piece ++ after) := by
    cases hhigh : isHighHalf n with
    | false => exact readUnit_of_not_high hhex hhigh
    | true =>
        refine readUnit_alone hhex ?_ (h.not_beginsLowHalf_append (halone hhigh) after)
        intro more heq hnone
        obtain ⟨inside, rfl, rfl⟩ := h.eq_of_append_eq_unit heq
        obtain ⟨answer, hinside⟩ := Option.ne_none_iff_exists'.mp h.readHex?_ne_none
        rw [readHex?_append hinside after] at hnone
        cases hnone
  simp [readText, hunit, hrest]

/-- Two escapes that spell both halves of a pair. -/
theorem pair {a b c d e f g k : CodePoint} {high low : Nat}
    (hhigh : hexFour? a b c d = some high) (hhalf : isHighHalf high = true)
    (hlow : hexFour? e f g k = some low) (hhalf' : isLowHalf low = true)
    (h : SpellsText s piece) :
    SpellsText (pairPoint high low :: s)
      (.char '\\' :: .char 'u' :: a :: b :: c :: d ::
        .char '\\' :: .char 'u' :: e :: f :: g :: k :: piece) := by
  intro start fuel done after hfuel
  obtain ⟨fuel, rfl⟩ := Nat.exists_eq_add_one.mpr (Nat.zero_lt_of_lt hfuel)
  have hlength : piece.length ≤ fuel := by
    simp only [List.length_cons] at hfuel
    omega
  have hrest := h start fuel (pairPoint high low :: done) after hlength
  have hinner : readHex? (e :: f :: g :: k :: (piece ++ after)) = some (low, piece ++ after) :=
    readHex?_cons hlow (List.append_ne_nil_of_left_ne_nil h.ne_nil _)
  have hunit (fromU : List CodePoint) :
      readUnit fromU (a :: b :: c :: d :: .char '\\' :: .char 'u' :: e :: f :: g :: k ::
        (piece ++ after)) = .ok (pairPoint high low, piece ++ after) :=
    readUnit_pair (readHex?_cons hhigh (List.cons_ne_nil _ _)) hhalf hinner hhalf'
  simp [readText, hunit, hrest]

/-- Reading a unit before a spelled text takes the digits of one escape off, or of two. -/
theorem of_readUnit {fromU afterU rest : List CodePoint} {point : CodePoint}
    (hunit : readUnit fromU afterU = .ok (point, piece ++ rest)) (h : SpellsText s piece) :
    ∃ digits, afterU = digits ++ piece ++ rest ∧
      SpellsText (point :: s) (.char '\\' :: .char 'u' :: digits ++ piece) ∧
      (IsQuoted piece → IsQuoted (.char '\\' :: .char 'u' :: digits ++ piece)) := by
  obtain ⟨n, unitRest, hhex, hpair | halone⟩ := readUnit_eq_ok hunit
  · obtain ⟨hhigh, more, low, rfl, hlow, hhalf, rfl⟩ := hpair
    obtain ⟨a, b, c, d, rfl, hfour, -⟩ := readHex?_eq_some hhex
    obtain ⟨e, f, g, k, rfl, hfour', -⟩ := readHex?_eq_some hlow
    have hdigits := exists_hexFour?_iff.mp ⟨_, hfour⟩
    have hdigits' := exists_hexFour?_iff.mp ⟨_, hfour'⟩
    exact ⟨[a, b, c, d, .char '\\', .char 'u', e, f, g, k], rfl,
      h.pair hfour hhigh hfour' hhalf, fun hquoted => .unit hdigits (.unit hdigits' hquoted)⟩
  · obtain ⟨rfl, rfl, halone⟩ := halone
    obtain ⟨a, b, c, d, rfl, hfour, -⟩ := readHex?_eq_some hhex
    have hdigits := exists_hexFour?_iff.mp ⟨_, hfour⟩
    refine ⟨[a, b, c, d], rfl, h.unit hfour fun hhigh hlow => halone hhigh ?_, .unit hdigits⟩
    obtain ⟨more, low, after, rfl, hlow, hhalf⟩ := hlow
    exact ⟨more ++ rest, low, after ++ rest, rfl, readHex?_append hlow rest, hhalf⟩

end SpellsText

/-- Reading a text takes a quoted piece off that spells it. -/
theorem readText_spells {start done cs s rest : List CodePoint} {fuel : Nat}
    (h : readText start fuel done cs = .ok (s, rest)) :
    ∃ t piece, s = done.reverse ++ t ∧ cs = piece ++ rest ∧ IsQuoted piece ∧
      SpellsText t piece := by
  fun_induction readText start fuel done cs with
  | case1 => cases h
  | case2 => cases h
  | case3 fuel done rest' =>
      cases h
      exact ⟨[], [.char '"'], by simp, rfl, .close, .quote⟩
  | case4 => cases h
  | case5 fuel done more e hne hunit =>
      rw [hunit] at h
      cases h
  | case6 fuel done more point after hne hunit ih =>
      rw [hunit] at h
      obtain ⟨t, piece, rfl, rfl, hquoted, ht⟩ := ih h
      obtain ⟨digits, rfl, hspells, hunitQuoted⟩ := ht.of_readUnit hunit
      exact ⟨point :: t, .char '\\' :: .char 'u' :: digits ++ piece, by simp, by simp,
        hunitQuoted hquoted, hspells⟩
  | case7 fuel done e more hu x he hne ih =>
      obtain ⟨t, piece, rfl, rfl, hquoted, ht⟩ := ih h
      obtain ⟨escaped, hescaped, rfl⟩ := exists_simpleEscape?_iff.mp ⟨x, he⟩
      exact ⟨.char x :: t, .char '\\' :: .char escaped :: piece, by simp, rfl,
        .escape hescaped hquoted, ht.escape he⟩
  | case8 => cases h
  | case9 => cases h
  | case10 fuel done p more hquote hslash hcontrol ih =>
      have hplain := Bool.eq_false_iff.mpr hcontrol
      obtain ⟨t, piece, rfl, rfl, hquoted, ht⟩ := ih h
      exact ⟨p :: t, p :: piece, by simp, rfl, .plain hquote hslash hplain hquoted,
        ht.plain hquote hslash hplain⟩

end UsageReport.Json
