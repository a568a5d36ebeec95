/-
Reports as documents.  What is accepted between braces of its own spells an object, and the
object is the same inside a report: braces, quotes and commas of a fragment cannot reach beyond
the entry it belongs to.  Names are plain, so they spell themselves.
-/
import Mathlib.Data.List.Forall2
import UsageReport.Proofs.Json.Members
import UsageReport.Proofs.Json.PlainText
import UsageReport.Proofs.Report.Isolation

namespace UsageReport

open Text (CodePoint)
open Json (Document Spells SpellsMembers SpellsText)

theorem Name.spellsText (name : Name) : SpellsText name.points (name.points ++ [.char '"']) :=
  spellsText_of_plain name.points_plain

/-- A name with its document, and the brace behind it. -/
theorem Name.spellsMembers (name : Name) {d : Document} {value : List CodePoint}
    (h : Spells d value) :
    SpellsMembers [(name.points, d)]
      (.char '"' :: name.points ++ Text.points "\":" ++ value ++ [.char '\x7d']) := by
  have hlast := SpellsMembers.last name.spellsText Json.blank_nil Json.blank_nil h Json.blank_nil
  simpa [Text.points] using hlast

theorem Name.spells_object (name : Name) {d : Document} {value : List CodePoint}
    (h : Spells d value) :
    Spells (.object [(name.points, d)])
      (inBraces (.char '"' :: name.points ++ Text.points "\":" ++ value)) := by
  have hobject := Spells.object Json.blank_nil (name.spellsMembers h)
  simpa only [inBraces, List.nil_append, List.append_nil, List.cons_append] using hobject

/-- A text between braces has no space around it. -/
theorem eq_nil_of_inBraces_eq {cs before piece after : List CodePoint}
    (heq : inBraces cs = before ++ piece ++ after) (hbefore : Json.Blank before)
    (hafter : Json.Blank after) : before = [] ∧ after = [] := by
  constructor
  · cases before with
    | nil => rfl
    | cons p rest =>
        rw [inBraces, List.cons_append, List.cons_append, List.cons_append,
          List.cons.injEq] at heq
        exact absurd (hbefore p List.mem_cons_self) (heq.1 ▸ by decide)
  · rcases List.eq_nil_or_concat after with hnil | ⟨rest, p, rfl⟩
    · exact hnil
    · rw [inBraces, List.concat_eq_append, ← List.append_assoc] at heq
      have hlast := List.append_inj_right' heq rfl
      rw [List.cons.injEq] at hlast
      exact absurd (hafter p (by simp)) (hlast.1 ▸ by decide)

/-- A text between braces that is read as a whole spells what it is read as. -/
theorem spells_inBraces {cs : List CodePoint} {d : Document}
    (h : Json.read (inBraces cs) = .ok d) : Spells d (inBraces cs) := by
  obtain ⟨before, piece, after, heq, hbefore, hafter, hspells⟩ := Json.read_eq_ok_iff.mp h
  obtain ⟨rfl, rfl⟩ := eq_nil_of_inBraces_eq heq hbefore hafter
  rw [List.nil_append, List.append_nil] at heq
  rwa [heq]

theorem exists_read_of_checkFragmentText {cs : List CodePoint}
    (h : checkFragmentText cs = .ok ()) : ∃ d, Json.read (inBraces cs) = .ok d := by
  unfold checkFragmentText at h
  split at h
  · next d hd => exact ⟨d, hd⟩
  · cases h
  · cases h

section Entries

variable {content : List CodePoint → Document} {entries : List (Name × List CodePoint)}

/-- The members that entries become, once their contents are read. -/
def reportMembers (content : List CodePoint → Document)
    (entries : List (Name × List CodePoint)) : List (List CodePoint × Document) :=
  entries.map fun entry => (entry.1.points, content entry.2)

/-- Entries with commas between them spell the members of an object. -/
theorem spellsMembers_entries (hne : entries ≠ [])
    (h : ∀ entry ∈ entries, Spells (content entry.2) (inBraces entry.2)) :
    SpellsMembers (reportMembers content entries)
      ([.char ','].intercalate (entries.map entryText) ++ Text.points "\x7d") := by
  induction entries with
  | nil => exact absurd rfl hne
  | cons entry rest ih =>
      have hentry := h entry List.mem_cons_self
      cases rest with
      | nil =>
          have hlast := entry.1.spellsMembers hentry
          simpa [reportMembers, entryText, inBraces, Text.points] using hlast
      | cons other more =>
          have hrest := ih (List.cons_ne_nil _ _) fun e he => h e (List.mem_cons_of_mem _ he)
          have hcons := SpellsMembers.cons entry.1.spellsText Json.blank_nil Json.blank_nil
            hentry Json.blank_nil Json.blank_nil hrest
          simpa [reportMembers, entryText, inBraces, Text.points, List.intercalate_cons_cons]
            using hcons

theorem spells_entries (h : ∀ entry ∈ entries, Spells (content entry.2) (inBraces entry.2)) :
    Spells (.object (reportMembers content entries))
      (inBraces ([.char ','].intercalate (entries.map entryText))) := by
  cases entries with
  | nil => exact .emptyObject Json.blank_nil
  | cons entry rest =>
      have hobject := Spells.object Json.blank_nil
        (spellsMembers_entries (List.cons_ne_nil entry rest) h)
      simpa [inBraces, Text.points] using hobject

/-- A report whose contents can be read between braces of their own is read as one object with
one member, which holds the contents under their names. -/
theorem read_reportText (h : ∀ entry ∈ entries, Spells (content entry.2) (inBraces entry.2)) :
    Json.read (reportText entries) =
      .ok (.object [(rootName.points, .object (reportMembers content entries))]) := by
  have hroot := rootName.spells_object (spells_entries h)
  refine Json.read_eq_ok_iff.mpr ⟨[], _, [], ?_, Json.blank_nil, Json.blank_nil, hroot⟩
  simp [reportText, inBraces, rootName, rootText, Text.points]

theorem toValue_reportMembers (hnames : (entries.map (·.1)).Nodup) :
    (Document.object [(rootName.points, .object (reportMembers content entries))]).toValue =
      .dict [(.text "memory_stats",
        .dict (entries.map fun entry => (entry.1.value, (content entry.2).toValue)))] := by
  have hnodup : ((reportMembers content entries).map (·.1)).Nodup := by
    have hpoints := hnames.map Name.points_injective
    simpa [reportMembers, Function.comp_def] using hpoints
  rw [Json.toValue_object_singleton, Json.toValue_object_of_nodup hnodup, reportMembers,
    List.map_map]
  exact congrArg (fun key => Value.dict [(key, _)]) (Value.ofPoints_points rootText)

end Entries

/-- What a report holds for a delivery: the marker, or whatever the delivered text is read as
between braces of its own. -/
def Delivery.Means (settings : Settings) (d : Delivery) (v : Value) : Prop :=
  if d.fails settings then v = .dict [(settings.faultMarker.value, .text "provider_fault")]
  else ∃ inner, Json.read (inBraces d.text) = .ok inner ∧ v = inner.toValue

/-- The marker is read as an object with one member. -/
theorem read_markerText (settings : Settings) :
    Json.read (inBraces (markerText settings)) =
      .ok (.object [(settings.faultMarker.points, .text (Text.points "provider_fault"))]) := by
  have hword : SpellsText (Text.points "provider_fault")
      (Text.points "provider_fault" ++ [.char '"']) := spellsText_of_plain (by decide)
  have hobject := settings.faultMarker.spells_object (Spells.text hword)
  refine Json.read_eq_ok_iff.mpr ⟨[], _, [], ?_, Json.blank_nil, Json.blank_nil, hobject⟩
  simp [inBraces, markerText, Text.points]

/-- What a delivery leaves of its entry can be read, if the check accepts what is delivered. -/
theorem Delivery.exists_read_segment {settings : Settings} {d : Delivery}
    (h : d.fails settings = false → checkFragmentText d.text = .ok ()) :
    ∃ inner, Json.read (inBraces (d.segment settings)) = .ok inner ∧
      d.Means settings inner.toValue := by
  unfold Delivery.segment Delivery.Means
  cases hfails : d.fails settings with
  | true =>
      refine ⟨_, read_markerText settings, ?_⟩
      rw [if_pos rfl, Json.toValue_object_singleton, Document.toValue, Value.ofPoints_points]
      rfl
  | false =>
      obtain ⟨inner, hinner⟩ := exists_read_of_checkFragmentText (h hfails)
      exact ⟨inner, hinner, inner, hinner, rfl⟩

/-- Where pieces are checked, the check accepts what does not fail. -/
theorem Delivery.checkFragmentText_of_not_fails {settings : Settings} {d : Delivery}
    (hvalidate : settings.validateFragments = true) (h : d.fails settings = false) :
    checkFragmentText d.text = .ok () := by
  cases hcheck : checkFragmentText d.text with
  | ok _ => rfl
  | error failure => simp [Delivery.fails, hvalidate, hcheck, Except.isOk, Except.toBool] at h

/-- What a text is read as between braces, if it can be read. -/
def contentOf (cs : List CodePoint) : Document := (Json.read (inBraces cs)).toOption.getD .null

theorem contentOf_eq {cs : List CodePoint} {d : Document} (h : Json.read (inBraces cs) = .ok d) :
    contentOf cs = d := by
  rw [contentOf, h]
  rfl

/-- With isolation, the report of ordinary providers is one JSON object with the member
`memory_stats`, as long as the check accepts whatever is delivered without a fault, be it made
or not.  The member holds the names of the registry, in order.  Each has its own content, read
as if nothing stood around it, or the marker: no text, name or marker reaches another entry. -/
theorem Assembly.isolated_report_reads_back (settings : Settings)
    (hisolate : settings.isolateFaults = true) (sink : Sink) (w : World) (registry : Registry)
    (hordinary : registry.IsOrdinary) (full : Value)
    (hfragments : settings.validateFragments = false →
      ∀ p ∈ registry.deliveries w full, p.2.fails settings = false →
        checkFragmentText p.2.text = .ok ()) :
    ∃ w' a doc fields, Assembly.run settings sink w registry full = (w', .ok a) ∧
      Json.read a.text = .ok doc ∧
      doc.toValue = .dict [(.text "memory_stats", .dict fields)] ∧
      fields.map (·.1) = registry.names.map Name.value ∧
      List.Forall₂ (fun p field => p.2.Means settings field.2) (registry.deliveries w full)
        fields := by
  obtain ⟨w', hrun, -⟩ := Assembly.run_isolated hisolate sink w hordinary full
  have hnames : (segments settings (registry.deliveries w full)).map (·.1) = registry.names := by
    rw [Registry.names, ← registry.deliveries_map_fst w full]
    simp [segments]
  have hread : ∀ p ∈ registry.deliveries w full, ∃ inner,
      Json.read (inBraces (p.2.segment settings)) = .ok inner ∧
        p.2.Means settings inner.toValue := by
    intro p hp
    refine Delivery.exists_read_segment fun hfails => ?_
    cases hvalidate : settings.validateFragments with
    | false => exact hfragments hvalidate p hp hfails
    | true => exact Delivery.checkFragmentText_of_not_fails hvalidate hfails
  have hspells : ∀ entry ∈ segments settings (registry.deliveries w full),
      Spells (contentOf entry.2) (inBraces entry.2) := by
    intro entry hentry
    obtain ⟨p, hp, rfl⟩ := List.mem_map.mp hentry
    obtain ⟨inner, hinner, -⟩ := hread p hp
    rw [contentOf_eq hinner]
    exact spells_inBraces hinner
  have hnodup : ((segments settings (registry.deliveries w full)).map (·.1)).Nodup := by
    rw [hnames]
    exact registry.names_nodup
  refine ⟨w', _, _, _, hrun, read_reportText hspells, toValue_reportMembers hnodup, ?_, ?_⟩
  · rw [← hnames, List.map_map, List.map_map]
    rfl
  · rw [segments, List.map_map, List.forall₂_map_right_iff, List.forall₂_same]
    intro p hp
    obtain ⟨inner, hinner, hmeans⟩ := hread p hp
    simpa only [Function.comp_apply, contentOf_eq hinner] using hmeans

theorem Assembly.isolated_report_reads_back_sample :
    ({} : Settings).isolateFaults = true ∧ Registry.sample.IsOrdinary ∧
      ∃ w' a doc fields, run {} .none .fresh .sample (.bool true) = (w', .ok a) ∧
        Json.read a.text = .ok doc ∧
        doc.toValue = .dict [(.text "memory_stats", .dict fields)] ∧
        fields.map (·.1) = [.text "files", .text "users", .text "chats"] ∧
        List.Forall₂ (fun p field => p.2.Means {} field.2)
          (Registry.sample.deliveries .fresh (.bool true)) fields := by
  refine ⟨rfl, Registry.sample_isOrdinary, ?_⟩
  refine Assembly.isolated_report_reads_back {} rfl .none .fresh .sample
    Registry.sample_isOrdinary (.bool true) fun _ p hp hfails => ?_
  rcases List.mem_cons.mp hp with rfl | hp
  · rfl
  · rcases List.mem_cons.mp hp with rfl | hp
    · cases hfails
    · rw [List.mem_singleton.mp hp] at hfails
      cases hfails

end UsageReport
