/-
Control characters in written values.  Inside texts they are escaped, and nothing else brings
them in but indentation, which begins new lines.  So a value that is written without indentation
stands on one line.
-/
import UsageReport.Proofs.Json.RoundTrip

namespace UsageReport.Json

/-- No control character, and so no line end. -/
def NoControl (cs : List Char) : Prop := ∀ c ∈ cs, 32 ≤ c.toNat

instance (cs : List Char) : Decidable (NoControl cs) :=
  decidable_of_iff (cs.all fun c => 32 ≤ c.toNat) (by simp [NoControl])

theorem NoControl.append {cs ds : List Char} (hcs : NoControl cs) (hds : NoControl ds) :
    NoControl (cs ++ ds) := List.forall_mem_append.mpr ⟨hcs, hds⟩

theorem NoControl.cons {c : Char} {cs : List Char} (hc : 32 ≤ c.toNat) (hcs : NoControl cs) :
    NoControl (c :: cs) := List.forall_mem_cons.mpr ⟨hc, hcs⟩

theorem NoControl.of_shows {cs : List Char} (h : Shows cs) : NoControl cs :=
  fun c hc => Nat.le_of_lt (h c hc)

theorem hexDigit_shows : ∀ n, n < 16 → 32 ≤ (Text.hexDigit n).toNat := by decide

theorem noControl_hexDigits (width n : Nat) : NoControl (Text.hexDigits width n) := by
  induction width generalizing n with
  | zero => exact fun c hc => absurd hc List.not_mem_nil
  | succ width ih =>
      refine (ih _).append fun c hc => ?_
      rw [List.mem_singleton.mp hc]
      exact hexDigit_shows _ (Nat.mod_lt _ (by decide))

theorem noControl_unitEscape (n : Nat) : NoControl (unitEscape n) :=
  .cons (by decide) (.cons (by decide) (noControl_hexDigits 4 n))

theorem noControl_charEscape (c : Char) : NoControl (charEscape c) := by
  unfold charEscape
  split
  · exact noControl_unitEscape _
  · exact (noControl_unitEscape _).append (noControl_unitEscape _)

theorem noControl_writeChar (ascii : Bool) (c : Char) : NoControl (writeChar ascii c) := by
  rcases writeChar_cases ascii c with ⟨letter, hletter, -, hwrite⟩ | hwrite | ⟨-, -, hlow, hwrite⟩
  · rw [hwrite]
    exact .cons (by decide) (.cons hletter (by decide))
  · rw [hwrite]
    exact noControl_charEscape c
  · rw [hwrite]
    exact .cons hlow (by decide)

theorem noControl_quoted {cs : List Char} (h : NoControl cs) : NoControl ('"' :: cs ++ ['"']) :=
  (NoControl.cons (by decide) h).append (by decide)

theorem noControl_writeText (ascii : Bool) (cs : List Char) : NoControl (writeText ascii cs) := by
  refine noControl_quoted fun c hc => ?_
  obtain ⟨c', -, hmem⟩ := List.mem_flatMap.mp hc
  exact noControl_writeChar ascii c' c hmem

theorem noControl_writeBroken {ascii : Bool} {points : List Text.CodePoint} {cs : List Char}
    (h : writeBroken ascii points = .ok cs) : NoControl cs := by
  unfold writeBroken at h
  split at h
  · cases h
  · cases h
    refine noControl_quoted fun c hc => ?_
    obtain ⟨point, -, hmem⟩ := List.mem_flatMap.mp hc
    cases point with
    | char c' => exact noControl_writeChar _ c' c hmem
    | surrogate n => exact noControl_unitEscape n c hmem

theorem noControl_writeInt {n : Int} {cs : List Char} (h : writeInt n = .ok cs) :
    NoControl cs := by
  simp only [writeInt] at h
  split at h
  · cases h
  · cases h
    have hdigits := NoControl.of_shows (shows_digitChars n.natAbs)
    split
    · exact hdigits.cons (by decide)
    · exact hdigits

theorem noControl_writeFloat {style : Style} {x : Float} {cs : List Char}
    (h : style.writeFloat x = .ok cs) : NoControl cs := by
  rw [Style.writeFloat_eq_ok h]
  exact .of_shows (shows_ofParts _)

theorem noControl_name {style : Style} {key : Value} {cs : List Char}
    (h : style.name key = .ok cs) : NoControl cs := by
  cases key with
  | broken points => exact noControl_writeBroken h
  | text | null | bool =>
      cases h
      exact noControl_writeText _ _
  | int | float =>
      obtain ⟨digits, -, rfl⟩ := exists_of_map_eq_ok h
      exact noControl_writeText _ _
  | bytes | list | tuple | set | dict => cases h

/-! ### Whole values -/

/-- A notation without control characters between parts. -/
structure Style.Clean (style : Style) : Prop where
  separator : NoControl style.separator
  afterName : NoControl style.afterName

/-- A clean notation that does not indent. -/
structure Style.OneLine (style : Style) : Prop extends style.Clean where
  indent : style.indent = none

theorem Style.line_oneLine : Style.line.OneLine := ⟨⟨by decide, by decide⟩, rfl⟩

/-- No control character, line ends apart if the notation indents. -/
def Style.Tidy (style : Style) (cs : List Char) : Prop :=
  ∀ c ∈ cs, 32 ≤ c.toNat ∨ c = '\n' ∧ style.indent ≠ none

variable {style : Style}

theorem NoControl.tidy {cs : List Char} (h : NoControl cs) : style.Tidy cs :=
  fun c hc => Or.inl (h c hc)

theorem Style.Tidy.append {cs ds : List Char} (hcs : style.Tidy cs) (hds : style.Tidy ds) :
    style.Tidy (cs ++ ds) := List.forall_mem_append.mpr ⟨hcs, hds⟩

theorem tidy_intercalate {sep : List Char} {parts : List (List Char)} (hsep : style.Tidy sep)
    (h : ∀ part ∈ parts, style.Tidy part) : style.Tidy (sep.intercalate parts) := by
  induction parts with
  | nil =>
      intro c hc
      exact absurd hc List.not_mem_nil
  | cons part rest ih =>
      rw [List.forall_mem_cons] at h
      cases rest with
      | nil => simpa using h.1
      | cons other more =>
          rw [List.intercalate_cons_cons]
          exact (h.1.append hsep).append (ih h.2)

theorem tidy_newLine (hindent : style.indent ≠ none) (width level : Nat) :
    style.Tidy (newLine width level) := by
  intro c hc
  rcases List.mem_cons.mp hc with rfl | hspace
  · exact Or.inr ⟨rfl, hindent⟩
  · rw [List.eq_of_mem_replicate hspace]
    exact Or.inl (by decide)

theorem Style.Clean.tidy_enclose (hstyle : style.Clean) (level : Nat) {opening closing : Char}
    (hopening : NoControl [opening]) (hclosing : NoControl [closing]) {parts : List (List Char)}
    (h : ∀ part ∈ parts, style.Tidy part) :
    style.Tidy (style.enclose level opening closing parts) := by
  unfold Style.enclose
  split
  · exact (hopening.append hclosing).tidy
  cases hindent : style.indent with
  | none =>
      have hparts := tidy_intercalate hstyle.separator.tidy h
      exact (hopening.tidy.append hparts).append hclosing.tidy
  | some width =>
      have hsome : style.indent ≠ none := by simp [hindent]
      have hline (n : Nat) : style.Tidy (newLine width n) := tidy_newLine hsome width n
      have hcomma : NoControl [','] := by decide
      have hparts := tidy_intercalate (hcomma.tidy.append (hline level)) h
      exact (((hopening.tidy.append (hline level)).append hparts).append
        (hline (level - 1))).append hclosing.tidy

mutual

theorem tidy_write (hstyle : style.Clean) {level : Nat} (v : Value) {cs : List Char}
    (h : style.write level v = .ok cs) : style.Tidy cs := by
  cases v with
  | null =>
      cases h
      exact NoControl.tidy (by decide)
  | bool b =>
      cases h
      cases b <;> exact NoControl.tidy (by decide)
  | int n => exact (noControl_writeInt h).tidy
  | float x => exact (noControl_writeFloat h).tidy
  | text s =>
      cases h
      exact (noControl_writeText _ _).tidy
  | broken points => exact (noControl_writeBroken h).tidy
  | bytes | set => cases h
  | list xs | tuple xs =>
      obtain ⟨parts, hparts, hcs⟩ := exists_of_bind_eq_ok h
      cases hcs
      exact hstyle.tidy_enclose _ (by decide) (by decide) (tidy_writeAll hstyle xs hparts)
  | dict pairs =>
      obtain ⟨parts, hparts, hcs⟩ := exists_of_bind_eq_ok h
      cases hcs
      exact hstyle.tidy_enclose _ (by decide) (by decide) (tidy_writePairs hstyle pairs hparts)

theorem tidy_writeAll (hstyle : style.Clean) {level : Nat} (xs : List Value)
    {parts : List (List Char)} (h : style.writeAll level xs = .ok parts) :
    ∀ part ∈ parts, style.Tidy part := by
  cases xs with
  | nil =>
      cases h
      simp
  | cons x xs =>
      obtain ⟨part, hpart, h⟩ := exists_of_bind_eq_ok h
      obtain ⟨rest, hrest, h⟩ := exists_of_bind_eq_ok h
      cases h
      exact List.forall_mem_cons.mpr ⟨tidy_write hstyle x hpart, tidy_writeAll hstyle xs hrest⟩

theorem tidy_writePairs (hstyle : style.Clean) {level : Nat} (pairs : List (Value × Value))
    {parts : List (List Char)} (h : style.writePairs level pairs = .ok parts) :
    ∀ part ∈ parts, style.Tidy part := by
  cases pairs with
  | nil =>
      cases h
      simp
  | cons pair pairs =>
      obtain ⟨k, v⟩ := pair
      obtain ⟨name, hname, h⟩ := exists_of_bind_eq_ok h
      obtain ⟨value, hvalue, h⟩ := exists_of_bind_eq_ok h
      obtain ⟨rest, hrest, h⟩ := exists_of_bind_eq_ok h
      cases h
      have hpart : style.Tidy (name ++ style.afterName ++ value) :=
        ((noControl_name hname).append hstyle.afterName).tidy.append (tidy_write hstyle v hvalue)
      exact List.forall_mem_cons.mpr ⟨hpart, tidy_writePairs hstyle pairs hrest⟩

end

theorem tidy_text (hstyle : style.Clean) {v : Value} {s : String} (h : style.text v = .ok s) :
    style.Tidy s.toList := by
  obtain ⟨cs, hcs, rfl⟩ := exists_of_map_eq_ok h
  rw [String.toList_ofList]
  exact tidy_write hstyle v hcs

/-- The text of a value on one line has no line end in it. -/
theorem newline_not_mem_text (hstyle : style.OneLine) {v : Value} {s : String}
    (h : style.text v = .ok s) : '\n' ∉ s.toList := by
  intro hmem
  rcases tidy_text hstyle.toClean h _ hmem with hcontrol | ⟨-, hindent⟩
  · exact absurd hcontrol (by decide)
  · exact hindent hstyle.indent

/-- The text of a value has no carriage return in it. -/
theorem return_not_mem_text (hstyle : style.Clean) {v : Value} {s : String}
    (h : style.text v = .ok s) : '\r' ∉ s.toList := by
  intro hmem
  rcases tidy_text hstyle h _ hmem with hcontrol | ⟨hnewline, -⟩
  · exact absurd hcontrol (by decide)
  · exact absurd hnewline (by decide)

end UsageReport.Json
