/-
Snapshots.  A snapshot knows a series by its text alone, so of the series that have one text it
shows the last one in place of the first.  It shows every series exactly if no two of them have
the same text.  That is so if the names and tags do not use the marks that a text is put together
with, since such a text can be taken apart again.
-/
import UsageReport.Proofs.Json.Members
import UsageReport.Proofs.Metrics.History

namespace UsageReport

open Text (CodePoint)

/-! ### Dictionaries under texts -/

namespace Pairs

variable {α : Type} (write : α → Value)

/-- Contents under texts as a dictionary. -/
def ofTexts (members : List (List CodePoint × α)) : Pairs :=
  members.map fun m => (.ofPoints m.1, write m.2)

theorem put_ofTexts (name : List CodePoint) (content : α)
    (members : List (List CodePoint × α)) :
    (ofTexts write members).put (.ofPoints name) (write content) =
      ofTexts write (Json.putMember name content members) := by
  induction members with
  | nil => rfl
  | cons member rest ih =>
      obtain ⟨other, old⟩ := member
      simp only [ofTexts, List.map_cons, put, Value.beq_ofPoints_iff, Value.ofPoints_inj,
        Json.putMember]
      split
      · rfl
      · rw [← ofTexts, ih]
        rfl

/-- Texts that are set one after the other make the dictionary in which the last of each wins. -/
theorem ofList_ofTexts (members : List (List CodePoint × α)) :
    ofList (ofTexts write members) = ofTexts write (Json.lastWins members) := by
  induction members using List.reverseRecOn with
  | nil => rfl
  | append_singleton before m ih =>
      rw [Json.lastWins_append_singleton, ← put_ofTexts, ← ih]
      simp [ofList, ofTexts]

end Pairs

/-! ### Texts of keys -/

section Marks

variable {α : Type} {mark : α} {before before' after after' : List α}

-- Mathlib's `List.append_cons_inj_of_notMem` wants the mark nowhere behind; here it may stand
-- there.
/-- Lists are the same up to the first place of a mark, and after it. -/
theorem append_cons_inj_of_not_mem (h : mark ∉ before) (h' : mark ∉ before')
    (heq : before ++ mark :: after = before' ++ mark :: after') :
    before = before' ∧ after = after' := by
  induction before generalizing before' with
  | nil =>
      cases before' with
      | nil => exact ⟨rfl, List.tail_eq_of_cons_eq heq⟩
      | cons first rest =>
          obtain ⟨rfl, -⟩ := List.cons.inj heq
          exact absurd List.mem_cons_self h'
  | cons first rest ih =>
      cases before' with
      | nil =>
          obtain ⟨rfl, -⟩ := List.cons.inj heq
          exact absurd List.mem_cons_self h
      | cons first' rest' =>
          obtain ⟨rfl, hrest⟩ := List.cons.inj heq
          obtain ⟨rfl, hafter⟩ := ih (fun hmem => h (List.mem_cons_of_mem _ hmem))
            (fun hmem => h' (List.mem_cons_of_mem _ hmem)) hrest
          exact ⟨rfl, hafter⟩

end Marks

namespace SeriesKey

/-- A tag as it stands in the text of a key. -/
def tagText (t : List CodePoint × List CodePoint) : List CodePoint := t.1 ++ .char '=' :: t.2

/-- A tag whose text can be told from other tags: no mark stands in it but in its value, where the
sign between name and value parts nothing any more. -/
structure PlainTag (t : List CodePoint × List CodePoint) : Prop where
  name_equals : .char '=' ∉ t.1
  name_comma : .char ',' ∉ t.1
  value_comma : .char ',' ∉ t.2

/-- A key whose text can be taken apart again. -/
structure Plain (k : SeriesKey) : Prop where
  name : .char '\x7b' ∉ k.name
  tags : ∀ t ∈ k.tags, PlainTag t

theorem PlainTag.comma_not_mem_tagText {t : List CodePoint × List CodePoint} (h : PlainTag t) :
    .char ',' ∉ tagText t := by
  rw [tagText, List.mem_append, List.mem_cons, not_or, not_or]
  exact ⟨h.name_comma, by decide, h.value_comma⟩

theorem PlainTag.tagText_inj {t t' : List CodePoint × List CodePoint} (h : PlainTag t)
    (h' : PlainTag t') (heq : tagText t = tagText t') : t = t' := by
  obtain ⟨hname, hvalue⟩ := append_cons_inj_of_not_mem h.name_equals h'.name_equals heq
  exact Prod.ext hname hvalue

theorem map_tagText_inj {ts ts' : List (List CodePoint × List CodePoint)}
    (h : ∀ t ∈ ts, PlainTag t) (h' : ∀ t ∈ ts', PlainTag t)
    (heq : ts.map tagText = ts'.map tagText) : ts = ts' := by
  induction ts generalizing ts' with
  | nil => exact (List.map_eq_nil_iff.mp heq.symm).symm
  | cons t rest ih =>
      cases ts' with
      | nil => cases heq
      | cons t' rest' =>
          rw [List.forall_mem_cons] at h h'
          obtain ⟨hfirst, hrest⟩ := List.cons.inj heq
          rw [h.1.tagText_inj h'.1 hfirst, ih h.2 h'.2 hrest]

/-- What stands between the braces of a key's text tells the tags. -/
theorem tags_of_intercalate {ts ts' : List (List CodePoint × List CodePoint)}
    (h : ∀ t ∈ ts, PlainTag t) (h' : ∀ t ∈ ts', PlainTag t) (hne : ts ≠ []) (hne' : ts' ≠ [])
    (heq : [CodePoint.char ','].intercalate (ts.map tagText) =
      [CodePoint.char ','].intercalate (ts'.map tagText)) : ts = ts' := by
  have hsplit {us : List (List CodePoint × List CodePoint)} (hus : ∀ t ∈ us, PlainTag t)
      (hnonempty : us ≠ []) :
      ([CodePoint.char ','].intercalate (us.map tagText)).splitOn (.char ',') =
        us.map tagText := by
    apply List.splitOn_intercalate
    · intro text htext
      obtain ⟨t, ht, rfl⟩ := List.mem_map.mp htext
      exact (hus t ht).comma_not_mem_tagText
    · exact fun hnil => hnonempty (List.map_eq_nil_iff.mp hnil)
  apply map_tagText_inj h h'
  rw [← hsplit h hne, heq, hsplit h' hne']

theorem text_of_tags {k : SeriesKey} (h : k.tags ≠ []) :
    k.text = k.name ++ .char '\x7b' ::
      ([CodePoint.char ','].intercalate (k.tags.map tagText) ++ [.char '\x7d']) := by
  rw [text, if_neg (by simpa using h), List.append_assoc, List.append_assoc]
  rfl

/-- Plain keys with one text are one key. -/
theorem Plain.text_inj {k k' : SeriesKey} (h : k.Plain) (h' : k'.Plain)
    (heq : k.text = k'.text) : k = k' := by
  -- A text with tags has the mark that a plain name lacks.
  have hmark {l : SeriesKey} (hl : l.Plain) : .char '\x7b' ∈ l.text ↔ l.tags ≠ [] := by
    by_cases htags : l.tags = []
    · rw [text, if_pos (by simpa using htags)]
      exact iff_of_false hl.name (not_not_intro htags)
    · rw [text_of_tags htags]
      exact iff_of_true (by simp) htags
  have hboth : k.tags ≠ [] ↔ k'.tags ≠ [] := by
    rw [← hmark h, ← hmark h', heq]
  by_cases htags : k.tags = []
  · have htags' : k'.tags = [] := not_ne_iff.mp fun hne => hboth.mpr hne htags
    rw [text, text, if_pos (by simpa using htags), if_pos (by simpa using htags')] at heq
    exact congrArg₂ SeriesKey.mk heq (htags.trans htags'.symm)
  · rw [text_of_tags htags, text_of_tags (hboth.mp htags)] at heq
    obtain ⟨hname, hrest⟩ := append_cons_inj_of_not_mem h.name h'.name heq
    have hinside := List.append_cancel_right hrest
    have hsame := tags_of_intercalate h.tags h'.tags htags (hboth.mp htags) hinside
    exact congrArg₂ SeriesKey.mk hname hsame

end SeriesKey

/-! ### What is shown of a table -/

namespace Table

variable {α : Type}

/-- The texts of a table's keys, in order. -/
def texts (t : Table α) : List (List CodePoint) := t.keys.map (·.text)

/-- What a snapshot shows of a table: every text once, with what was given last under it. -/
def shown (t : Table α) : List (List CodePoint × α) :=
  Json.lastWins (t.map fun s => (s.1.text, s.2))

/-- How a snapshot tells of a table.  Each text stands once, with what the last series of that text
holds.  All series are shown, one for one and each with its own content, exactly if no two have the
same text, and plain keys never have. -/
structure Told (t : Table α) : Prop where
  keys_nodup : t.keys.Nodup
  texts_nodup : (t.shown.map (·.1)).Nodup
  last : ∀ text, t.shown.lookup text =
    ((t.filter fun s => s.1.text = text).getLast?).map (·.2)
  whole_iff : t.shown = t.map (fun s => (s.1.text, s.2)) ↔ t.texts.Nodup
  apart : (∀ key ∈ t.keys, key.Plain) → t.texts.Nodup

theorem map_fst_texts (t : Table α) : (t.map fun s => (s.1.text, s.2)).map (·.1) = t.texts := by
  rw [texts, keys, List.map_map, List.map_map]
  rfl

theorem shown_eq_iff (t : Table α) :
    t.shown = t.map (fun s => (s.1.text, s.2)) ↔ t.texts.Nodup := by
  constructor
  · intro h
    rw [← map_fst_texts, ← h]
    exact Json.names_lastWins_nodup _
  · intro h
    apply Json.lastWins_of_nodup
    rw [map_fst_texts]
    exact h

theorem lookup_shown (t : Table α) (text : List CodePoint) :
    t.shown.lookup text = ((t.filter fun s => s.1.text = text).getLast?).map (·.2) := by
  rw [shown, Json.lookup_lastWins, List.filter_map, List.getLast?_map, Option.map_map]
  rfl

theorem told_of_nodup {t : Table α} (h : t.keys.Nodup) : t.Told where
  keys_nodup := h
  texts_nodup := Json.names_lastWins_nodup _
  last := t.lookup_shown
  whole_iff := t.shown_eq_iff
  apart hplain := by
    apply h.map_on
    intro key hkey key' hkey'
    exact (hplain key hkey).text_inj (hplain key' hkey')

end Table

namespace Metrics

theorem tableValue_eq {α : Type} (write : α → Value) (t : Table α) :
    tableValue write t = .dict (Pairs.ofTexts write t.shown) := by
  rw [Table.shown, ← Pairs.ofList_ofTexts, tableValue, Pairs.ofTexts, List.map_map]
  rfl

/-- Whatever was done, a snapshot tells of the counters, the gauges and the histograms, each under
its text.  Of a kind it shows all series exactly if no two of them have the same text, as is so if
all are plain; then what it shows of the counters adds up to what all of them hold.  Otherwise it
shows the last series of each text and leaves the others out. -/
theorem snapshot_shows_all_iff (limit : Int) (ops : List Operation) :
    let m := (new limit).run ops
    m.snapshot = .ofFields [
      ("counters", .dict (Pairs.ofTexts .int m.counters.shown)),
      ("gauges", .dict (Pairs.ofTexts id m.gauges.shown)),
      ("histograms", .dict (Pairs.ofTexts summaryValue m.histograms.shown))] ∧
    m.counters.Told ∧ m.gauges.Told ∧ m.histograms.Told ∧
    (m.counters.texts.Nodup →
      (m.counters.shown.map (·.2)).sum = (m.counters.map (·.2)).sum) := by
  intro m
  have hreflects :
      Reflects (max leastLimit limit.toNat) (sinceReset ((new limit).succeeded ops)) m :=
    reflects_run limit ops
  refine ⟨?_, Table.told_of_nodup hreflects.counters_nodup,
    Table.told_of_nodup hreflects.gauges_nodup, Table.told_of_nodup hreflects.histograms_nodup, ?_⟩
  · simp only [snapshot, tableValue_eq]
  · intro htexts
    rw [m.counters.shown_eq_iff.mpr htexts, List.map_map]
    rfl

/-- A key whose subsystem runs on as if it were two tags. -/
def longSubsystem : SeriesKey where
  name := Text.points "errors_total"
  tags := [(Text.points "code", Text.points "c"),
    (Text.points "subsystem", Text.points "a,subsystem=b")]

/-- A key of the same text whose code runs on. -/
def longCode : SeriesKey where
  name := Text.points "errors_total"
  tags := [(Text.points "code", Text.points "c,subsystem=a"),
    (Text.points "subsystem", Text.points "b")]

/-- One added under the one key, and two under the other. -/
def runTogether : List Operation :=
  [.add (.text "errors_total") (.int 1)
    [(.text "code", .text "c"), (.text "subsystem", .text "a,subsystem=b")],
   .add (.text "errors_total") (.int 2)
    [(.text "code", .text "c,subsystem=a"), (.text "subsystem", .text "b")]]

/-- A snapshot need not show every counter: of two that hold three together, it shows the second
only. -/
theorem counters_run_together :
    let m := (new usualLimit).run runTogether
    m.counters.keys.Nodup ∧ m.counters.map (·.2) = [1, 2] ∧
      m.snapshot = .ofFields [
        ("counters", .ofFields [("errors_total\x7bcode=c,subsystem=a,subsystem=b\x7d", .int 2)]),
        ("gauges", .dict []), ("histograms", .dict [])] ∧
      (m.counters.shown.map (·.2)).sum ≠ (m.counters.map (·.2)).sum := by
  intro m
  have hfirst : SeriesKey.read (.text "errors_total")
      [(.text "code", .text "c"), (.text "subsystem", .text "a,subsystem=b")] = .ok longSubsystem :=
    congrArg Except.ok (SeriesKey.of_ascending (.text "errors_total") (by decide))
  have hsecond : SeriesKey.read (.text "errors_total")
      [(.text "code", .text "c,subsystem=a"), (.text "subsystem", .text "b")] = .ok longCode :=
    congrArg Except.ok (SeriesKey.of_ascending (.text "errors_total") (by decide))
  have hm : m = ⟨200, [(longSubsystem, 1), (longCode, 2)], [], []⟩ := by
    simp only [m, runTogether, run, List.foldl_cons, List.foldl_nil, perform, withSeries, hfirst,
      hsecond]
    rfl
  have hshown : Table.shown [(longSubsystem, (1 : Int)), (longCode, 2)] =
      [(Text.points "errors_total\x7bcode=c,subsystem=a,subsystem=b\x7d", 2)] := by
    decide +kernel
  rw [hm]
  refine ⟨by decide, rfl, ?_, ?_⟩
  · rw [snapshot, tableValue_eq, hshown, Pairs.ofTexts, List.map_singleton, Value.ofPoints_points]
    rfl
  · rw [hshown]
    decide

end Metrics

end UsageReport
