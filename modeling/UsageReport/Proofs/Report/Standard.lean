/-
Which reports are standard.  The check reads a fragment with all the words of the reader, those
of the standard and three more, so a report of checked fragments is a text of the larger grammar
always.  It is one of the standard exactly if every fragment in it is: a report is taken apart in
one way only, and the marker of a lost entry uses no word at all.
-/
import UsageReport.Proofs.Json.Derivation
import UsageReport.Proofs.Report.Document
import UsageReport.Proofs.Report.FaultModes

namespace UsageReport

open Text (CodePoint)
open Json (Derives Document IsQuoted IsText Spells extendedWords standardWords)

variable {vocabulary : List (List CodePoint)}

theorem Name.isQuoted (name : Name) : IsQuoted (name.points ++ [.char '"']) :=
  isQuoted_of_plain name.points_plain

/-- Between braces of its own, a text is one of the grammar exactly if it is an object as it
stands. -/
theorem isText_inBraces_iff {cs : List CodePoint} :
    IsText vocabulary (inBraces cs) ↔ Derives vocabulary .document (inBraces cs) := by
  constructor
  · rintro ⟨before, piece, after, heq, hbefore, hafter, hderives⟩
    obtain ⟨rfl, rfl⟩ := eq_nil_of_inBraces_eq heq hbefore hafter
    rw [List.nil_append, List.append_nil] at heq
    rwa [heq]
  · intro h
    exact ⟨[], _, [], by simp, Json.blank_nil, Json.blank_nil, h⟩

/-! ### Entries -/

theorem entryText_append (entry : Name × List CodePoint) (after : List CodePoint) :
    entryText entry ++ after =
      .char '"' :: ((entry.1.points ++ [.char '"']) ++
        .char ':' :: (inBraces entry.2 ++ after)) := by
  simp [entryText, inBraces, Text.points]

section Entries

variable {entries : List (Name × List CodePoint)}

theorem quote_of_entries (hne : entries ≠ []) :
    ∃ tail, [.char ','].intercalate (entries.map entryText) = .char '"' :: tail := by
  obtain ⟨entry, rest, rfl⟩ := List.exists_cons_of_ne_nil hne
  cases rest with
  | nil => exact ⟨_, by rw [List.map_singleton, List.intercalate_singleton]; rfl⟩
  | cons other more =>
      exact ⟨_, by rw [List.map_cons, List.map_cons, List.intercalate_cons_cons]; rfl⟩

/-- Entries with commas between them are members exactly if each of them is an object. -/
theorem derives_members_entries_iff (hwords : vocabulary ⊆ extendedWords) (hne : entries ≠ [])
    (h : ∀ entry ∈ entries, ∃ d, Spells d (inBraces entry.2)) :
    Derives vocabulary .members
        ([.char ','].intercalate (entries.map entryText) ++ [.char '\x7d']) ↔
      ∀ entry ∈ entries, Derives vocabulary .document (inBraces entry.2) := by
  induction entries with
  | nil => exact absurd rfl hne
  | cons entry rest ih =>
      obtain ⟨d, hd⟩ := h entry List.mem_cons_self
      cases rest with
      | nil =>
          simp only [List.map_cons, List.map_nil, List.intercalate_singleton, entryText_append,
            List.forall_mem_singleton]
          constructor
          · intro hmembers
            exact (hmembers.of_member hwords entry.1.isQuoted hd rfl rfl).1
          · intro hvalue
            have hlast := Derives.lastMember entry.1.isQuoted Json.blank_nil Json.blank_nil
              hvalue Json.blank_nil
            simpa using hlast
      | cons other more =>
          have hrest := ih (List.cons_ne_nil _ _) fun e he => h e (List.mem_cons_of_mem _ he)
          rw [List.map_cons, List.map_cons, List.intercalate_cons_cons, ← List.map_cons,
            List.append_assoc, List.append_assoc, entryText_append, List.singleton_append,
            List.forall_mem_cons, ← hrest]
          constructor
          · intro hmembers
            obtain ⟨hvalue, hend | ⟨space, piece, heq, hspace, hpiece⟩⟩ :=
              hmembers.of_member hwords entry.1.isQuoted hd rfl rfl
            · cases (List.cons.inj hend).1
            · -- The space after the comma is empty, for a name follows it.
              obtain ⟨tail, htail⟩ := quote_of_entries (List.cons_ne_nil other more)
              have hskip := congrArg Json.skipSpace (List.cons.inj heq).2
              rw [hpiece.skipSpace_members hspace, htail, List.cons_append,
                Json.skipSpace_cons rfl, ← List.cons_append, ← htail] at hskip
              exact ⟨hvalue, hskip ▸ hpiece⟩
          · rintro ⟨hvalue, hmembers⟩
            have hcons := Derives.member entry.1.isQuoted Json.blank_nil Json.blank_nil hvalue
              Json.blank_nil Json.blank_nil hmembers
            simpa using hcons

/-- The object of all entries is derived exactly if every entry is. -/
theorem derives_entries_iff (hwords : vocabulary ⊆ extendedWords)
    (h : ∀ entry ∈ entries, ∃ d, Spells d (inBraces entry.2)) :
    Derives vocabulary .document
        (inBraces ([.char ','].intercalate (entries.map entryText))) ↔
      ∀ entry ∈ entries, Derives vocabulary .document (inBraces entry.2) := by
  rcases eq_or_ne entries [] with rfl | hne
  · exact iff_of_true (.emptyObject Json.blank_nil) fun _ he => absurd he List.not_mem_nil
  · rw [← derives_members_entries_iff hwords hne h]
    obtain ⟨tail, htail⟩ := quote_of_entries hne
    constructor
    · intro hobject
      rw [inBraces, htail, List.cons_append] at hobject
      rcases hobject.of_brace hwords (Json.skipSpace_cons rfl _) with hend | hmembers
      · cases (List.cons.inj hend).1
      · rwa [htail]
    · intro hmembers
      have hobject := Derives.object Json.blank_nil hmembers
      simpa [inBraces] using hobject

/-- A report is an object with one entry, which holds the object of all entries. -/
theorem reportText_eq_inBraces (entries : List (Name × List CodePoint)) :
    reportText entries = inBraces ([.char ','].intercalate
      ([(rootName, [.char ','].intercalate (entries.map entryText))].map entryText)) := by
  rw [List.map_singleton, List.intercalate_singleton]
  simp [reportText, entryText, inBraces, rootName, rootText, Text.points]

/-- A report of contents that can be read is a text of the grammar exactly if every content is
one, between braces of its own. -/
theorem isText_reportText_iff (hwords : vocabulary ⊆ extendedWords)
    (h : ∀ entry ∈ entries, ∃ d, Json.read (inBraces entry.2) = .ok d) :
    IsText vocabulary (reportText entries) ↔
      ∀ entry ∈ entries, IsText vocabulary (inBraces entry.2) := by
  have hspells : ∀ entry ∈ entries, Spells (contentOf entry.2) (inBraces entry.2) := by
    intro entry hentry
    obtain ⟨d, hd⟩ := h entry hentry
    rw [contentOf_eq hd]
    exact spells_inBraces hd
  have hroot : ∀ entry ∈ [(rootName, [.char ','].intercalate (entries.map entryText))],
      ∃ d, Spells d (inBraces entry.2) := by
    rw [List.forall_mem_singleton]
    exact ⟨_, spells_entries hspells⟩
  simp only [isText_inBraces_iff, reportText_eq_inBraces]
  rw [derives_entries_iff hwords hroot, List.forall_mem_singleton,
    derives_entries_iff hwords fun entry hentry => ⟨_, hspells entry hentry⟩]

end Entries

/-! ### What the check lets pass -/

theorem standardWords_subset : standardWords ⊆ extendedWords := List.subset_append_left _ _

/-- A plain name with a document of the grammar is a text of the grammar between braces. -/
theorem isText_member {name value : List CodePoint} (hname : name.all isPlain = true)
    (hvalue : Derives vocabulary .document value) :
    IsText vocabulary (inBraces (.char '"' :: name ++ Text.points "\":" ++ value)) := by
  have hmembers := Derives.lastMember (isQuoted_of_plain hname) Json.blank_nil Json.blank_nil
    hvalue Json.blank_nil
  have hobject := Derives.object Json.blank_nil hmembers
  rw [isText_inBraces_iff]
  simpa [inBraces, Text.points] using hobject

/-- The marker is standard. -/
theorem isText_markerText (settings : Settings) :
    IsText standardWords (inBraces (markerText settings)) := by
  have hword : IsQuoted (Text.points "provider_fault" ++ [.char '"']) :=
    isQuoted_of_plain (by decide)
  have hmarker := isText_member settings.faultMarker.points_plain
    (show Derives standardWords .document _ from .text hword)
  simpa [markerText, Text.points] using hmarker

/-- The check lets a text pass exactly if it is one of the larger grammar between braces. -/
theorem checkFragmentText_isOk_iff {cs : List CodePoint} :
    (checkFragmentText cs).isOk = true ↔ IsText extendedWords (inBraces cs) := by
  rw [← Json.exists_read_iff]
  unfold checkFragmentText
  cases Json.read (inBraces cs) with
  | ok d => simp [Except.isOk, Except.toBool]
  | error e => cases e <;> simp [Except.isOk, Except.toBool]

section Deliveries

variable {settings : Settings}

/-- Where pieces are checked, a delivery costs its provider the entry exactly if the call raised,
if a piece is no text, or if the text is none of the larger grammar between braces. -/
theorem Delivery.fails_iff (hvalidate : settings.validateFragments = true) {d : Delivery} :
    d.fails settings = true ↔ d.fault.isSome = true ∨ (∃ v ∈ d.pieces, v.points? = none) ∨
      ¬IsText extendedWords (inBraces d.text) := by
  simp [fails, hvalidate, ← checkFragmentText_isOk_iff, or_assoc]

/-- The names of a registry differ, so a name is listed exactly if its own delivery failed. -/
theorem Registry.name_mem_lostNames_iff (settings : Settings) (r : Registry) (w : World)
    (full : Value) {p : Entry × Delivery} (hp : p ∈ r.deliveries w full) :
    p.1.name ∈ lostNames settings (r.deliveries w full) ↔ p.2.fails settings = true := by
  have hnodup : ((r.deliveries w full).map (·.1.name)).Nodup := by
    have hnames := r.names_nodup
    rw [← r.deliveries_map_fst w full, List.map_map] at hnames
    exact hnames
  simp only [lostNames, List.mem_map, List.mem_filter]
  constructor
  · rintro ⟨q, ⟨hq, hfails⟩, hname⟩
    rwa [← List.inj_on_of_nodup_map hnodup hq hp hname]
  · exact fun hfails => ⟨p, ⟨hp, hfails⟩, rfl⟩

/-- What a delivery leaves of its entry is standard, unless it keeps the entry and its own text
is not standard. -/
theorem Delivery.isText_segment_iff {d : Delivery} :
    IsText standardWords (inBraces (d.segment settings)) ↔
      (d.fails settings = false → IsText standardWords (inBraces d.text)) := by
  unfold Delivery.segment
  cases d.fails settings with
  | true => exact iff_of_true (isText_markerText settings) fun h => by cases h
  | false => simp

/-- Deliveries that do not fail keep their texts. -/
theorem segments_of_fine {delivered : List (Entry × Delivery)}
    (h : ∀ p ∈ delivered, p.2.fails settings = false) :
    segments settings delivered = delivered.map fun p => (p.1.name, p.2.text) :=
  List.map_congr_left fun p hp => by simp [Delivery.segment, h p hp]

end Deliveries

/-- With isolation and checks, the report of ordinary providers is a text of the larger grammar.
It holds the marker for a provider exactly if that raised, appended what is no text, or appended
what is none of the larger grammar between braces.  The report is standard exactly if every
fragment that was kept is: no entry spoils another, but a fragment with a word for what is no
finite number passes the check, and the report is not standard then. -/
theorem Assembly.report_is_standard_iff (settings : Settings)
    (hisolate : settings.isolateFaults = true) (hvalidate : settings.validateFragments = true)
    (sink : Sink) (w : World) (registry : Registry) (hordinary : registry.IsOrdinary)
    (full : Value) :
    ∃ w' a, Assembly.run settings sink w registry full = (w', .ok a) ∧
      IsText extendedWords a.text ∧
      a.text = reportText ((registry.deliveries w full).map fun p =>
        (p.1.name, if p.1.name ∈ a.faults then markerText settings else p.2.text)) ∧
      (∀ p ∈ registry.deliveries w full, p.1.name ∈ a.faults ↔
        p.2.fault.isSome = true ∨ (∃ v ∈ p.2.pieces, v.points? = none) ∨
          ¬IsText extendedWords (inBraces p.2.text)) ∧
      (IsText standardWords a.text ↔
        ∀ p ∈ registry.deliveries w full, p.1.name ∉ a.faults →
          IsText standardWords (inBraces p.2.text)) := by
  obtain ⟨w', hrun, -⟩ := Assembly.run_isolated hisolate sink w hordinary full
  have hread : ∀ entry ∈ segments settings (registry.deliveries w full),
      ∃ d, Json.read (inBraces entry.2) = .ok d := by
    intro entry hentry
    obtain ⟨p, -, rfl⟩ := List.mem_map.mp hentry
    have hcheck : p.2.fails settings = false → checkFragmentText p.2.text = .ok () :=
      Delivery.checkFragmentText_of_not_fails hvalidate
    obtain ⟨d, hd, -⟩ := Delivery.exists_read_segment hcheck
    exact ⟨d, hd⟩
  refine ⟨w', _, hrun, ?_, ?_, fun p hp => ?_, ?_⟩
  · rw [isText_reportText_iff (fun _ hw => hw) hread]
    exact fun entry hentry => Json.exists_read_iff.mp (hread entry hentry)
  · refine congrArg reportText (List.map_congr_left fun p hp => ?_)
    simp only [Delivery.segment, registry.name_mem_lostNames_iff settings w full hp]
  · exact (registry.name_mem_lostNames_iff settings w full hp).trans
      (Delivery.fails_iff hvalidate)
  · rw [isText_reportText_iff standardWords_subset hread, segments, List.forall_mem_map]
    refine forall₂_congr fun p hp => ?_
    rw [Delivery.isText_segment_iff, registry.name_mem_lostNames_iff settings w full hp,
      Bool.not_eq_true]

theorem isText_sample_files :
    IsText standardWords (inBraces (Text.points "\"open\":2")) := by
  have hnumber : Json.IsNumber ([] ++ ['2'] ++ [] ++ []) :=
    .parts (by simp) (.digits rfl (by decide) (by simp)) .none .none (by decide)
  have hname : (Text.points "open").all isPlain = true := by decide
  exact isText_member hname (.number hnumber)

theorem Assembly.report_is_standard_iff_sample :
    ({ validateFragments := true } : Settings).isolateFaults = true ∧
      ({ validateFragments := true } : Settings).validateFragments = true ∧
      Registry.sample.IsOrdinary ∧
      ∃ w' a, run { validateFragments := true } .none .fresh .sample (.bool true) =
        (w', .ok a) ∧ IsText standardWords a.text := by
  refine ⟨rfl, rfl, Registry.sample_isOrdinary, ?_⟩
  obtain ⟨w', a, hrun, -, -, hfaults, hstandard⟩ := Assembly.report_is_standard_iff
    { validateFragments := true } rfl rfl .none .fresh .sample Registry.sample_isOrdinary
    (.bool true)
  refine ⟨w', a, hrun, hstandard.mpr fun p hp hkept => ?_⟩
  have hlost := (hfaults p hp).not.mp hkept
  simp only [Registry.deliveries, deliveries, Registry.sample, List.mem_cons, List.not_mem_nil,
    or_false] at hp
  rcases hp with rfl | rfl | rfl
  · exact isText_sample_files
  · exact absurd (Or.inl rfl) hlost
  · exact absurd (Or.inr (Or.inl ⟨_, List.mem_cons_self, rfl⟩)) hlost

/-! ### A word that is not standard -/

/-- One provider, whose fragment has a word for what is no number. -/
def Registry.notFinite : Registry where
  entries := [⟨⟨Text.points "ratio", by decide, by decide⟩,
    scripted 0 .plain [.emit (.text "\"a\":NaN")]⟩]
  names_nodup := by decide
  callable := by
    intro e he
    rw [List.mem_singleton.mp he]
    rfl

/-- The fragment is one of the larger grammar, and none of the standard. -/
theorem isText_notFinite : IsText extendedWords (inBraces (Text.points "\"a\":NaN")) ∧
    ¬IsText standardWords (inBraces (Text.points "\"a\":NaN")) := by
  have hname : (Text.points "a").all isPlain = true := by decide
  refine ⟨isText_member hname (.word (by decide)), ?_⟩
  rw [isText_inBraces_iff]
  intro h
  rcases h.of_brace standardWords_subset rfl with hend | hmembers
  · cases (List.cons.inj hend).1
  · have hmember : Derives standardWords .members (.char '"' ::
        ((Text.points "a" ++ [.char '"']) ++ .char ':' :: (Text.points "NaN" ++ [.char '\x7d']))) :=
      hmembers
    have hword : (Text.points "NaN", Document.float Json.notANumber) ∈ Json.words := by
      simp [Json.words]
    have hvalue := (hmember.of_member standardWords_subset (isQuoted_of_plain hname)
      (Spells.word hword) rfl rfl).1
    exact Json.not_derives_standard (by decide) hvalue

/-- The check lets a fragment with a word for what is no number pass, so it reaches the report:
no entry is lost, and the report is not standard. -/
theorem Assembly.not_finite_reaches_report :
    ∃ w' a, run { validateFragments := true } .none .fresh .notFinite (.bool false) =
        (w', .ok a) ∧
      a.text = Text.points "\x7b\"memory_stats\":\x7b\"ratio\":\x7b\"a\":NaN\x7d\x7d\x7d" ∧
      a.faults = [] ∧ ¬IsText standardWords a.text := by
  have hfine : ∀ p ∈ Registry.notFinite.deliveries .fresh (.bool false),
      p.2.fails { validateFragments := true } = false := by
    intro p hp
    cases List.mem_singleton.mp hp
    rw [← Bool.not_eq_true, Delivery.fails_iff rfl]
    rintro (hfault | ⟨v, hv, hkind⟩ | htext)
    · cases hfault
    · cases List.mem_singleton.mp hv
      cases hkind
    · exact htext isText_notFinite.1
  have hsegments : segments { validateFragments := true }
      (Registry.notFinite.deliveries .fresh (.bool false)) =
        [(⟨Text.points "ratio", by decide, by decide⟩, Text.points "\"a\":NaN")] :=
    segments_of_fine hfine
  refine ⟨_, _, run_of_fine hfine, ?_, rfl, ?_⟩
  · rw [hsegments]
    rfl
  · rw [hsegments, isText_reportText_iff standardWords_subset, List.forall_mem_singleton]
    · exact isText_notFinite.2
    · rw [List.forall_mem_singleton]
      exact Json.exists_read_iff.mpr isText_notFinite.1

end UsageReport
