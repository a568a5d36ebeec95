/-
The text of a report.  Whatever the entries are, the envelope under construction holds the
opening of the report and the finished entries with commas between them, and its closing braces
once it was built.  As long as it is open, a name is refused only if it is invalid or taken; and
building it gives the whole text.
-/
import UsageReport.Envelope

namespace UsageReport

open Text (CodePoint)

/-- The text of an entry: its name, and its content between braces. -/
def entryText (entry : Name × List CodePoint) : List CodePoint :=
  .char '"' :: entry.1.points ++ Text.points "\":\x7b" ++ entry.2 ++ Text.points "\x7d"

/-- The text of a report with the entries given. -/
def reportText (entries : List (Name × List CodePoint)) : List CodePoint :=
  Text.points "\x7b\"memory_stats\":\x7b" ++ [.char ','].intercalate (entries.map entryText) ++
    Text.points "\x7d\x7d"

theorem intercalate_append_singleton {α : Type} (sep last : List α) {parts : List (List α)}
    (h : parts ≠ []) :
    sep.intercalate (parts ++ [last]) = sep.intercalate parts ++ sep ++ last := by
  induction parts with
  | nil => exact absurd rfl h
  | cons part rest ih =>
      cases rest with
      | nil => simp
      | cons other more =>
          have hmore := ih (List.cons_ne_nil _ _)
          simp only [List.cons_append, List.intercalate_cons_cons] at hmore ⊢
          rw [hmore]
          simp only [List.append_assoc]

namespace Envelope

variable {e : Envelope} {root : Name} {entries : List (Name × List CodePoint)}

/-- The text of an envelope under a root name, as far as its entries go. -/
def frontText (root : Name) (entries : List (Name × List CodePoint)) : List CodePoint :=
  .char '\x7b' :: opening root ++ [.char ','].intercalate (entries.map entryText)

/-- The envelope holds exactly the entries given under a root name, in order, and behind them its
closing braces once it is closed. -/
structure Stands (e : Envelope) (root : Name) (entries : List (Name × List CodePoint)) : Prop where
  pieces : ∃ texts : List (List CodePoint), e.pieces = texts.map .ofPoints ∧
    texts.flatten = frontText root entries ++ if e.closed then Text.points "\x7d\x7d" else []
  names : e.names = entries.map (·.1)
  count : e.count = entries.length

/-- An envelope can be made under every valid name, and then it holds nothing. -/
theorem stands_of_new {name : Value} (h : Envelope.new name = .ok e) :
    ∃ root, validateName name = .ok root ∧ e.Stands root [] ∧ e.closed = false := by
  rw [Envelope.new] at h
  cases hroot : validateName name with
  | error f =>
      rw [hroot] at h
      cases h
  | ok root =>
      rw [hroot] at h
      cases h
      refine ⟨root, rfl, ⟨⟨[Text.points "\x7b", opening root], ?_, ?_⟩, rfl, rfl⟩, rfl⟩
      · simp [Value.ofPoints_points]
      · simp [frontText, Text.points]

theorem lead_eq (hcount : e.count = entries.length) (name : Name) :
    ∃ texts : List (List CodePoint), e.lead name = texts.map .ofPoints ∧
      ∀ content, [.char ','].intercalate (entries.map entryText) ++ texts.flatten ++
          content ++ Text.points "\x7d" =
        [.char ','].intercalate ((entries ++ [(name, content)]).map entryText) := by
  cases entries with
  | nil =>
      rw [List.length_nil] at hcount
      refine ⟨[opening name], by simp [lead, hcount], fun content => ?_⟩
      simp [entryText, opening]
  | cons first rest =>
      have hpositive : e.count ≠ 0 := by simp [hcount]
      refine ⟨[Text.points ",", opening name],
        by simp [lead, hpositive, Value.ofPoints_points], fun content => ?_⟩
      rw [List.map_append, List.map_singleton, intercalate_append_singleton _ _ (by simp)]
      simp [entryText, opening, Text.points]

/-- An entry that is begun and finished follows those that the envelope holds. -/
theorem Stands.endEntry (h : e.Stands root entries) (hopen : e.closed = false) (name : Name)
    (texts : List (List CodePoint)) :
    (e.beginEntry name (texts.map .ofPoints)).endEntry.Stands root
      (entries ++ [(name, texts.flatten)]) := by
  obtain ⟨before, hpieces, htext⟩ := h.pieces
  obtain ⟨lead, hlead, hentries⟩ := lead_eq h.count name
  rw [hopen] at htext
  refine ⟨⟨before ++ lead ++ texts ++ [Text.points "\x7d"], ?_, ?_⟩, ?_, ?_⟩
  · simp only [Envelope.endEntry, beginEntry, hpieces, hlead, List.map_append, List.map_singleton,
      Value.ofPoints_points]
  · have hstill : (e.beginEntry name (texts.map .ofPoints)).endEntry.closed = false := hopen
    rw [hstill, frontText, ← hentries texts.flatten]
    simp only [List.flatten_append, htext, frontText, List.flatten_singleton, List.append_assoc,
      List.cons_append, Bool.false_eq_true, if_false, List.append_nil]
  · simp [Envelope.endEntry, beginEntry, h.names]
  · simp [Envelope.endEntry, beginEntry, h.count]

theorem Stands.close (h : e.Stands root entries) : e.close.Stands root entries := by
  obtain ⟨texts, hpieces, htext⟩ := h.pieces
  cases hclosed : e.closed with
  | true => simpa only [Envelope.close, hclosed, if_true] using h
  | false =>
      simp only [Envelope.close, hclosed, Bool.false_eq_true, if_false]
      rw [hclosed] at htext
      refine ⟨⟨texts ++ [Text.points "\x7d", Text.points "\x7d"], ?_, ?_⟩, h.names, h.count⟩
      · simp [hpieces, Value.ofPoints_points]
      · simp only [List.flatten_append, htext]
        simp [Text.points]

/-- A closed envelope is closed for good. -/
theorem close_closed (e : Envelope) : e.close.closed = true := by
  cases hclosed : e.closed <;> simp [Envelope.close, hclosed]

/-- Building gives the text of the entries, whether or not the envelope was closed before. -/
theorem Stands.build (h : e.Stands root entries) :
    e.build = (e.close, .ok (frontText root entries ++ Text.points "\x7d\x7d")) := by
  obtain ⟨texts, hpieces, htext⟩ := h.close.pieces
  rw [Envelope.build, hpieces, joinTexts_map_ofPoints, htext, close_closed, if_pos rfl]

/-- The envelope of a report is open and holds exactly the entries given, in order. -/
structure Holds (e : Envelope) (entries : List (Name × List CodePoint)) : Prop where
  stands : e.Stands rootName entries
  isOpen : e.closed = false

/-- The envelope of a report to which nothing was added. -/
def blank : Envelope :=
  { pieces := [.text "\x7b", .ofPoints (opening rootName)], names := [], count := 0
    closed := false }

theorem new_rootName : Envelope.new rootName.value = .ok blank := by
  rw [Envelope.new, validateName_value]
  rfl

theorem new_holds : ∃ e, Envelope.new rootName.value = .ok e ∧ e.Holds [] := by
  obtain ⟨root, hroot, hstands, hopen⟩ := stands_of_new new_rootName
  rw [validateName_value] at hroot
  cases hroot
  exact ⟨blank, new_rootName, hstands, hopen⟩

/-- An open envelope accepts every new name. -/
theorem accept_of_new {name : Name} (hopen : e.closed = false) (hnew : name ∉ e.names) :
    e.accept name.value = .ok name := by
  simp [accept, hopen, hnew]

/-- An entry under a new name is added after those that the envelope holds. -/
theorem Holds.add (h : e.Holds entries) {name : Name} (hname : name ∉ entries.map (·.1))
    (texts : List (List CodePoint)) :
    ∃ added, e.add name.value (.list (texts.map .ofPoints)) = (added, .ok ()) ∧
      added.Holds (entries ++ [(name, texts.flatten)]) := by
  have haccept : e.accept name.value = .ok name :=
    accept_of_new h.isOpen (by rwa [h.stands.names])
  refine ⟨_, ?_, h.stands.endEntry h.isOpen name texts, h.isOpen⟩
  simp [Envelope.add, addParts, haccept, Parts.ofValue, Value.members]

theorem reportText_eq (entries : List (Name × List CodePoint)) :
    reportText entries = frontText rootName entries ++ Text.points "\x7d\x7d" := by
  have hfront : Text.points "\x7b\"memory_stats\":\x7b" = .char '\x7b' :: opening rootName := by
    decide
  rw [reportText, hfront, frontText]

/-- Closing the envelope gives the text of the report. -/
theorem Holds.build (h : e.Holds entries) : e.build = (e.close, .ok (reportText entries)) := by
  rw [h.stands.build, reportText_eq]

theorem Holds.close_count (h : e.Holds entries) : e.close.count = entries.length :=
  h.stands.close.count

end Envelope

end UsageReport
