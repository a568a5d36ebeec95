/-
Names and the marker of lost entries.  A text is a name exactly if JSON reads it, and writes it, as
it stands between quotes.  The marker is held to the same rule once the blanks around it are gone,
whatever else the settings are given, and the marker that is kept is accepted again as it is.
-/
import UsageReport.Proofs.Json.PlainText
import UsageReport.Proofs.Provider.Registry
import UsageReport.Proofs.Settings.RoundTrip

namespace UsageReport

open Text (CodePoint)

/-- A text is accepted as a name exactly if it is not empty and plain. -/
theorem validateName_ofPoints_iff {points : List CodePoint} :
    (∃ n, validateName (.ofPoints points) = .ok n ∧ n.value = .ofPoints points) ↔
      points ≠ [] ∧ points.all isPlain = true := by
  simp only [validateName_eq_ok_iff, Value.points?_ofPoints, Option.some.injEq]
  constructor
  · rintro ⟨n, rfl, -⟩
    exact ⟨n.points_ne_nil, n.points_plain⟩
  · rintro ⟨hne, hplain⟩
    exact ⟨⟨points, hne, hplain⟩, rfl, rfl⟩

namespace Settings

/-- The name of the field that holds the marker. -/
def markerField : Value := .text "fault_marker_key"

variable {coercions : Field.Coercions} {points : List CodePoint} {others : Pairs} {v : Value}
  {n : Name} {s : Settings}

/-- A text is read as the marker that it is as a name, once the blanks around it are gone. -/
theorem readMarker_ofPoints_iff :
    readMarker coercions (.ofPoints points) = .ok n ↔
      validateName (.ofPoints (Text.trimBy Text.isBlankPoint points)) = .ok n := by
  rw [validateName_eq_ok_iff, Value.points?_ofPoints, Option.some.injEq]
  simp only [readMarker, coercions.text_own, bind, Except.bind]
  split
  · next hempty => simp [hempty, n.points_ne_nil.symm]
  · rw [← Name.ofPoints?_eq_some_iff]
    cases Name.ofPoints? (Text.trimBy Text.isBlankPoint points) with
    | none => simp
    | some m => simp

/-- A field does not depend on what is given under another name. -/
theorem carries_cons_iff {α : Type} {key name : String} (hne : key ≠ name) {fallback a : α}
    {read : Value → Field.Reading α} :
    Field.Carries ((.text key, v) :: others) name fallback read a ↔
      Field.Carries others name fallback read a := by
  simp [Field.Carries, Pairs.get?, hne]

theorem get?_markerField (hothers : ∀ p ∈ others, p.1 ≠ markerField) :
    Pairs.get? markerField others = none := by
  rw [Pairs.get?, Option.map_eq_none_iff, List.find?_eq_none]
  intro p hp heq
  rw [markerField, ← Value.ofPoints_points, Value.beq_ofPoints_iff, Value.ofPoints_points] at heq
  exact hothers p hp heq

/-- The marker and the other fields are judged apart. -/
theorem fits_marker_iff (hothers : ∀ p ∈ others, p.1 ≠ markerField) :
    s.Fits coercions ((markerField, v) :: others) ↔
      readMarker coercions v = .ok s.faultMarker ∧
        Fits coercions others { s with faultMarker := usualMarker } := by
  have hnone := get?_markerField hothers
  rw [markerField] at hnone
  have hgiven : Field.Carries ((markerField, v) :: others) "fault_marker_key" usualMarker
      (readMarker coercions) s.faultMarker ↔ readMarker coercions v = .ok s.faultMarker := by
    simp [Field.Carries, Pairs.get?, markerField]
  constructor
  · intro h
    exact ⟨hgiven.mp h.marker,
      { known := fun p hp => h.known p (List.mem_cons_of_mem _ hp)
        isolate := (carries_cons_iff (by decide)).mp h.isolate
        marker := by simp [Field.Carries, hnone]
        validate := (carries_cons_iff (by decide)).mp h.validate
        record := (carries_cons_iff (by decide)).mp h.record
        limit := (carries_cons_iff (by decide)).mp h.limit }⟩
  · rintro ⟨hmarker, h⟩
    exact
      { known := List.forall_mem_cons.mpr ⟨⟨"fault_marker_key", by decide, rfl⟩, h.known⟩
        isolate := (carries_cons_iff (by decide)).mpr h.isolate
        marker := hgiven.mpr hmarker
        validate := (carries_cons_iff (by decide)).mpr h.validate
        record := (carries_cons_iff (by decide)).mpr h.record
        limit := (carries_cons_iff (by decide)).mpr h.limit }

/-- A text is accepted as a name, and then as itself, exactly if it is not empty and JSON reads it
as it stands between quotes; just as well exactly if it is not empty and JSON writes it as it is
between quotes.  Any other text is refused as no name.  Settings take a text for the marker, next to
whatever other fields they take, exactly if it is a name once the blanks around it are gone.  They
keep that name, and take it again as it is. -/
theorem names_are_verbatim_texts (points : List CodePoint) :
    ((∃ n, validateName (.ofPoints points) = .ok n ∧ n.value = .ofPoints points) ↔
      points ≠ [] ∧ ∃ d, Json.read (Json.inQuotes points) = .ok d ∧
        (d.toValue == Value.ofPoints points) = true) ∧
    ((∃ n, validateName (.ofPoints points) = .ok n ∧ n.value = .ofPoints points) ↔
      points ≠ [] ∧ Json.writePoints points = Json.inQuotes points) ∧
    ((¬∃ n, validateName (.ofPoints points) = .ok n ∧ n.value = .ofPoints points) →
      validateName (.ofPoints points) = .error (invalidName (refusedName (.ofPoints points)))) ∧
    ∀ (coercions : Field.Coercions) (others : Pairs), (∀ p ∈ others, p.1 ≠ markerField) → ∀ s,
      (ofPairs coercions ((markerField, .ofPoints points) :: others) = .ok s ↔
        validateName (.ofPoints (Text.trimBy Text.isBlankPoint points)) = .ok s.faultMarker ∧
          ofPairs coercions others = .ok { s with faultMarker := usualMarker }) ∧
      (ofPairs coercions ((markerField, .ofPoints points) :: others) = .ok s →
        s.faultMarker.points = Text.trimBy Text.isBlankPoint points ∧
          ofPairs coercions ((markerField, s.faultMarker.value) :: others) = .ok s) := by
  refine ⟨?_, ?_, fun hnot => ?_, fun coercions others hothers s => ?_⟩
  · rw [validateName_ofPoints_iff, Json.read_inQuotes_eq_iff]
  · rw [validateName_ofPoints_iff, Json.writePoints_eq_iff]
  · refine validateName_refused (fun n hn => ?_) (by simp)
    rw [Value.points?_ofPoints, Option.some.injEq] at hn
    exact hnot (validateName_ofPoints_iff.mpr (hn ▸ ⟨n.points_ne_nil, n.points_plain⟩))
  · have htakes (v : Value) : ofPairs coercions ((markerField, v) :: others) = .ok s ↔
        readMarker coercions v = .ok s.faultMarker ∧
          ofPairs coercions others = .ok { s with faultMarker := usualMarker } := by
      rw [ofPairs_eq_ok_iff, fits_marker_iff hothers, ofPairs_eq_ok_iff]
    rw [htakes, htakes, readMarker_ofPoints_iff]
    refine ⟨Iff.rfl, fun ⟨hname, hrest⟩ => ?_⟩
    rw [validateName_eq_ok_iff, Value.points?_ofPoints, Option.some.injEq] at hname
    refine ⟨hname.symm, readMarker_value ?_, hrest⟩
    rw [← hname, Text.trimBy_trimBy]

/-- A backslash and the letter behind it could be an escape, so they are no name.  A marker with
blanks around it is kept without them, next to another field. -/
theorem names_are_verbatim_texts_sample :
    let points := Text.points "a\\n"
    let lost : Name := ⟨Text.points "lost", by decide, by decide⟩
    let others : Pairs := [(.text "validate_fragments", .bool true)]
    let s : Settings := { faultMarker := lost, validateFragments := true }
    (¬∃ n, validateName (.ofPoints points) = .ok n ∧ n.value = .ofPoints points) ∧
      validateName (.ofPoints points) = .error (invalidName (refusedName (.ofPoints points))) ∧
      (∀ p ∈ others, p.1 ≠ markerField) ∧
      ofPairs .lenient ((markerField, .ofPoints (Text.points " lost\n")) :: others) = .ok s ∧
      ofPairs .lenient ((markerField, lost.value) :: others) = .ok s := by
  intro points lost others s
  have hnot : ¬∃ n, validateName (.ofPoints points) = .ok n ∧ n.value = .ofPoints points := by
    rw [validateName_ofPoints_iff]
    decide
  have hothers : ∀ p ∈ others, p.1 ≠ markerField := by simp [others, markerField]
  obtain ⟨-, -, hrefused, -⟩ := names_are_verbatim_texts points
  obtain ⟨-, -, -, hmarker⟩ := names_are_verbatim_texts (Text.points " lost\n")
  obtain ⟨htakes, hagain⟩ := hmarker .lenient others hothers s
  have hs := htakes.mpr ⟨validateName_eq_ok_iff.mpr rfl, eq_ok_of_toOption (by decide +kernel)⟩
  exact ⟨hnot, hrefused hnot, hothers, hs, (hagain hs).2⟩

end Settings

end UsageReport
