/-
What reports of errors do to the metrics.  A sink that counts adds one to the counter of a row;
all other series, and all metrics under any other sink, stay as they are.
-/
import UsageReport.Proofs.Metrics.Counter
import UsageReport.World

namespace UsageReport

/-- Whether the reports to a sink are counted in the metrics. -/
def Sink.counts : Sink → Bool
  | .log l => l.counts
  | _ => false

/-- The second metrics are what reports to the sink may make of the first: they count rows. -/
structure Sink.Alters (sink : Sink) (m m' : Metrics) : Prop where
  limit : m'.limit = m.limit
  gauges : m'.gauges = m.gauges
  histograms : m'.histograms = m.histograms
  counters : ∀ k, k.name ≠ Text.points "errors_total" → m'.counter k = m.counter k
  silent : sink.counts = false → m' = m

theorem Sink.alters_refl (sink : Sink) (m : Metrics) : sink.Alters m m :=
  ⟨rfl, rfl, rfl, fun _ _ => rfl, fun _ => rfl⟩

theorem Sink.Alters.trans {sink : Sink} {m m' m'' : Metrics} (h : sink.Alters m m')
    (h' : sink.Alters m' m'') : sink.Alters m m'' where
  limit := h'.limit.trans h.limit
  gauges := h'.gauges.trans h.gauges
  histograms := h'.histograms.trans h.histograms
  counters := fun k hk => (h'.counters k hk).trans (h.counters k hk)
  silent := fun hsink => (h'.silent hsink).trans (h.silent hsink)

/-- Writing an error counts a row, or counts nothing. -/
theorem ErrorLog.write_metrics (log : ErrorLog) (time : String) (s : ErrorLog.Effects) (f : Fault)
    (trace subsystem : Value) (internal : Option Fault) :
    (log.write time s f trace subsystem internal).1.metrics = s.metrics ∨
      log.counts = true ∧ ∃ code, (log.write time s f trace subsystem internal).1.metrics =
        s.metrics.add (ErrorLog.series subsystem code) 1 := by
  unfold ErrorLog.write
  split
  · next e _ =>
    split
    · exact .inl rfl
    · split
      · exact .inl rfl
      · split
        · next hcounts => exact .inr ⟨hcounts, e.code, rfl⟩
        · exact .inl rfl
  · exact .inl rfl

/-- A report of an error counts a row, or counts nothing. -/
theorem ErrorLog.report_metrics (log : ErrorLog) (time : String) (s : ErrorLog.Effects) (f : Fault)
    (trace subsystem : Value) (context : Pairs) :
    (log.report time s f trace subsystem context).1.metrics = s.metrics ∨
      log.counts = true ∧ ∃ code, (log.report time s f trace subsystem context).1.metrics =
        s.metrics.add (ErrorLog.series subsystem code) 1 := by
  unfold ErrorLog.report
  split
  · exact .inl rfl
  · next e _ =>
    have hwrite := log.write_metrics time s e trace subsystem (some f)
    split
    · next written hok =>
      rwa [hok] at hwrite
    · next written failure herror =>
      rwa [herror] at hwrite

/-- A row that is counted alters nothing else. -/
theorem Sink.alters_add {log : ErrorLog} (hcounts : log.counts = true) (m : Metrics)
    (subsystem code : Value) : (Sink.log log).Alters m (m.add (ErrorLog.series subsystem code) 1)
    where
  limit := rfl
  gauges := rfl
  histograms := rfl
  counters := by
    intro k hk
    have hother : k ≠ ErrorLog.series subsystem code := by
      rintro rfl
      exact hk rfl
    rw [Metrics.counter_add, if_neg hother, Int.add_zero]
  silent := by
    intro hsilent
    rw [Sink.counts, hcounts] at hsilent
    cases hsilent

end UsageReport
