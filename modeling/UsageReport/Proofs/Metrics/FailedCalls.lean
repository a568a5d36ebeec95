/-
Failed calls.  An operation reads what it is given before it changes anything, with one exception:
an observation makes its histogram first.  So a failed call changes nothing, unless it observes
for the first time what is no number; then an empty histogram is left behind, and snapshots
show it.
-/
import UsageReport.Proofs.Metrics.Snapshot

namespace UsageReport

/-- A new series goes last. -/
theorem Table.put_of_get?_none {α : Type} {t : Table α} {key : SeriesKey} (content : α)
    (h : t.get? key = none) : t.put key content = t ++ [(key, content)] := by
  apply put_ite_of_not_mem (put key content) rfl (fun _ _ _ => rfl)
  rw [get?, List.lookup_eq_none_iff] at h
  intro hmem
  obtain ⟨s, hs, rfl⟩ := List.mem_map.mp hmem
  simpa using h s hs

/-- One more series is shown under its text, in place of what was shown there. -/
theorem Table.shown_append_singleton {α : Type} (t : Table α) (s : SeriesKey × α) :
    Table.shown (t ++ [s]) = Json.putMember s.1.text s.2 t.shown := by
  rw [shown, List.map_append, List.map_singleton, Json.lastWins_append_singleton]
  rfl

/-- The summary of an empty histogram. -/
theorem summaryValue_nil : summaryValue [] = .ofFields [("count", .float 0.0)] := by
  have hascending : ascending ([] : List Float) = [] := by simp [ascending]
  rw [summaryValue, summarize?, hascending]
  rfl

namespace Metrics

variable {m : Metrics} {failure : Failure}

/-- The key of the histogram that an operation makes: that of an observation, if there is none under
it yet and the limit allows for one.  It is made before the value is read. -/
def Operation.opened? (m : Metrics) : Operation → Option SeriesKey
  | .observe name _ tags =>
    match SeriesKey.read name tags with
    | .ok key =>
      if m.histograms.get? key = none ∧ m.limit ≤ greatestLimit then some key else none
    | .error _ => none
  | _ => none

/-- The metrics with an empty histogram under a new key. -/
def opened (m : Metrics) (key : SeriesKey) : Metrics :=
  { m with histograms := m.histograms ++ [(key, [])] }

theorem openHistogram_eq (m : Metrics) (key : SeriesKey) :
    m.openHistogram key = if m.histograms.get? key = none then m.opened key else m := by
  unfold openHistogram
  cases hold : m.histograms.get? key with
  | none => rw [Table.put_of_get?_none [] hold, if_pos rfl, opened]
  | some samples => rfl

/-- An observation that fails leaves a new histogram behind exactly if there was room for it. -/
theorem observe_of_error {key : SeriesKey} {value : Value}
    (h : (m.observe key value).2 = .error failure) :
    (m.observe key value).1 =
      if m.histograms.get? key = none ∧ m.limit ≤ greatestLimit then m.opened key else m := by
  unfold observe at h ⊢
  by_cases hfull : greatestLimit < m.limit ∧ m.histograms.get? key = none
  · rw [if_pos hfull, if_neg fun hroom => by omega]
  · rw [if_neg hfull] at h ⊢
    cases hnumber : value.toFloat with
    | error failure =>
        simp only [openHistogram_eq]
        by_cases hnone : m.histograms.get? key = none
        · have hroom : m.limit ≤ greatestLimit :=
            Nat.le_of_not_lt fun hlarge => hfull ⟨hlarge, hnone⟩
          rw [if_pos hnone, if_pos ⟨hnone, hroom⟩]
        · rw [if_neg hnone, if_neg fun hroom => hnone hroom.1]
    | ok x =>
        rw [hnumber] at h
        cases h

/-- What changes nothing when it fails under a key changes nothing when the key cannot be read. -/
theorem withSeries_of_error {name : Value} {tags : Pairs}
    {act : SeriesKey → Metrics × Except Failure Unit}
    (hact : ∀ key, (act key).2 = .error failure → (act key).1 = m)
    (h : (m.withSeries name tags act).2 = .error failure) :
    (m.withSeries name tags act).1 = m := by
  unfold withSeries at h ⊢
  cases hread : SeriesKey.read name tags with
  | error refusal => rfl
  | ok key =>
      rw [hread] at h
      exact hact key h

/-- An operation that fails leaves everything as it was, but for the histogram that it makes. -/
theorem perform_of_error {op : Operation} (h : (m.perform op).2 = .error failure) :
    (m.perform op).1 = ((op.opened? m).map m.opened).getD m := by
  cases op with
  | add name amount tags =>
      apply withSeries_of_error _ h
      intro key hfails
      cases hincrement : m.increment key amount with
      | error refusal => rfl
      | ok m' =>
          rw [hincrement] at hfails
          cases hfails
  | setGauge name value tags =>
      apply withSeries_of_error _ h
      intro key hfails
      cases hfails
  | observe name value tags =>
      simp only [perform, withSeries, Operation.opened?] at h ⊢
      cases hread : SeriesKey.read name tags with
      | error refusal => rfl
      | ok key =>
          simp only [hread] at h ⊢
          rw [observe_of_error h]
          split <;> rfl
  | reset => cases h

/-- Such an operation: what is no number is observed for the first time under a key. -/
theorem perform_observe_first {name value : Value} {tags : Pairs} {key : SeriesKey}
    (hread : SeriesKey.read name tags = .ok key) (hnone : m.histograms.get? key = none)
    (hroom : m.limit ≤ greatestLimit) (hvalue : value.toFloat = .error failure) :
    m.perform (.observe name value tags) = (m.opened key, .error failure) := by
  have hfree : ¬(greatestLimit < m.limit ∧ m.histograms.get? key = none) := by omega
  simp only [perform, withSeries, hread, observe, if_neg hfree, hvalue, openHistogram_eq,
    if_pos hnone]

theorem snapshot_opened (m : Metrics) (key : SeriesKey) :
    (m.opened key).snapshot = .ofFields [
      ("counters", .dict (Pairs.ofTexts .int m.counters.shown)),
      ("gauges", .dict (Pairs.ofTexts id m.gauges.shown)),
      ("histograms", .dict (Pairs.ofTexts summaryValue
        (Json.putMember key.text [] m.histograms.shown)))] := by
  simp only [snapshot, opened, tableValue_eq, Table.shown_append_singleton]

/-- A histogram is seen to be made if no other one has its text. -/
theorem snapshot_opened_ne {key : SeriesKey} (h : key.text ∉ m.histograms.texts) :
    (m.opened key).snapshot ≠ m.snapshot := by
  have hnew : key.text ∉ m.histograms.shown.map (·.1) := by
    rw [Table.shown, Json.mem_names_lastWins, Table.map_fst_texts]
    exact h
  intro heq
  rw [snapshot_opened, Json.putMember_of_not_mem _ hnew] at heq
  simp only [snapshot, tableValue_eq, Value.ofFields, Pairs.ofTexts, List.map_append] at heq
  simp at heq

/-- A call that fails changes nothing, whatever the metrics are and whatever it is given, unless it
observes for the first time under a key what is no number.  Then an empty histogram is left
behind: a snapshot shows it under the text of its key, and the counters and gauges as before.  So
it differs from the snapshot before, if no other histogram has that text. -/
theorem failed_call_adds_at_most_a_histogram (m : Metrics) {op : Operation}
    (h : (m.perform op).2 = .error failure) :
    (op.opened? m = none → (m.perform op).1 = m) ∧
    ∀ key, op.opened? m = some key →
      (m.perform op).1 = { m with histograms := m.histograms ++ [(key, [])] } ∧
      (m.perform op).1.snapshot = .ofFields [
        ("counters", .dict (Pairs.ofTexts .int m.counters.shown)),
        ("gauges", .dict (Pairs.ofTexts id m.gauges.shown)),
        ("histograms", .dict (Pairs.ofTexts summaryValue
          (Json.putMember key.text [] m.histograms.shown)))] ∧
      (key.text ∉ m.histograms.texts → (m.perform op).1.snapshot ≠ m.snapshot) := by
  have hleft := perform_of_error h
  constructor
  · intro hnone
    rw [hleft, hnone]
    rfl
  · intro key hkey
    have hopened : (m.perform op).1 = m.opened key := by
      rw [hleft, hkey]
      rfl
    rw [hopened]
    exact ⟨rfl, m.snapshot_opened key, snapshot_opened_ne⟩

/-- Of two calls that fail, the one with an amount that is no number leaves no trace, and the one
with such a sample makes a histogram. -/
theorem failed_call_adds_at_most_a_histogram_sample :
    let m := new usualLimit
    (m.perform (.add (.text "t") .null [])).2 = .error (.intKind "NoneType") ∧
      (m.perform (.add (.text "t") .null [])).1 = m ∧
      (m.perform (.observe (.text "t") .null [])).2 = .error (.floatKind "NoneType") ∧
      (m.perform (.observe (.text "t") .null [])).1.histograms = [(⟨Text.points "t", []⟩, [])] := by
  intro m
  have hread : SeriesKey.read (.text "t") [] = .ok ⟨Text.points "t", []⟩ :=
    congrArg Except.ok (SeriesKey.of_ascending (.text "t") List.Pairwise.nil)
  have hadd : (m.perform (.add (.text "t") .null [])).2 = .error (.intKind "NoneType") := by
    simp only [perform, withSeries, hread]
    rfl
  have hfirst : m.perform (.observe (.text "t") .null []) = (m.opened _, _) :=
    perform_observe_first hread rfl (by decide) rfl
  have hobserve : (m.perform (.observe (.text "t") .null [])).2 =
      .error (.floatKind "NoneType") := congrArg Prod.snd hfirst
  have hopened : Operation.opened? m (.observe (.text "t") .null []) =
      some ⟨Text.points "t", []⟩ := by
    simp only [Operation.opened?, hread]
    rfl
  obtain ⟨hsame, -⟩ := failed_call_adds_at_most_a_histogram m hadd
  obtain ⟨-, hmade⟩ := failed_call_adds_at_most_a_histogram m hobserve
  obtain ⟨hleft, -⟩ := hmade _ hopened
  refine ⟨hadd, hsame rfl, hobserve, ?_⟩
  rw [hleft]
  rfl

/-- What is no number, observed first of all, shows in the next snapshot. -/
theorem failed_observation_shows :
    let m := new usualLimit
    let after := m.perform (.observe (.text "t") .null [])
    after.2 = .error (.floatKind "NoneType") ∧
      m.snapshot =
        .ofFields [("counters", .dict []), ("gauges", .dict []), ("histograms", .dict [])] ∧
      after.1.snapshot =
        .ofFields [("counters", .dict []), ("gauges", .dict []),
          ("histograms", .ofFields [("t", .ofFields [("count", .float 0.0)])])] ∧
      after.1.snapshot ≠ m.snapshot := by
  intro m after
  have hread : SeriesKey.read (.text "t") [] = .ok ⟨Text.points "t", []⟩ :=
    congrArg Except.ok (SeriesKey.of_ascending (.text "t") List.Pairwise.nil)
  have hafter : after = (m.opened _, _) := perform_observe_first hread rfl (by decide) rfl
  rw [hafter]
  refine ⟨rfl, rfl, ?_, snapshot_opened_ne List.not_mem_nil⟩
  have hshown : Pairs.ofTexts summaryValue
      (Json.putMember (SeriesKey.text ⟨Text.points "t", []⟩) [] m.histograms.shown) =
        [(.ofPoints (Text.points "t"), summaryValue [])] := rfl
  rw [snapshot_opened, hshown, summaryValue_nil, Value.ofPoints_points]
  rfl

end Metrics

end UsageReport
