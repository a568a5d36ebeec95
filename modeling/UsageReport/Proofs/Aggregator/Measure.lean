/-
What counting a request does to the metrics.  One counter tells how it ended, another the faults;
the time goes to a histogram, which can be made up to the greatest limit, and the size of the
registry is noted last.
-/
import UsageReport.Aggregator
import UsageReport.Proofs.Metrics.Histogram

namespace UsageReport

namespace Aggregator

variable {m : Metrics}

/-- The metrics once a request and its faults are counted. -/
def counted (m : Metrics) (ok : Bool) (faults : Nat) : Metrics :=
  if faults = 0 then m.add (requestSeries ok) 1
  else (m.add (requestSeries ok) 1).add faultSeries faults

/-- The samples of the times that assemblies took. -/
def samples (m : Metrics) : List Float := (m.histograms.get? timeSeries).getD []

theorem measure_eq (m : Metrics) (ok : Bool) (faults : Nat) (elapsed : Float) (size : Nat) :
    measure m ok faults elapsed size =
      match (counted m ok faults).observe timeSeries (.float elapsed) with
      | (m, .error failure) => (m, fail failure)
      | (m, .ok ()) => (m.setGauge sizeSeries (.int size), .ok ()) := rfl

@[simp] theorem counted_limit (m : Metrics) (ok : Bool) (faults : Nat) :
    (counted m ok faults).limit = m.limit := by
  unfold counted
  split <;> rfl

@[simp] theorem counted_histograms (m : Metrics) (ok : Bool) (faults : Nat) :
    (counted m ok faults).histograms = m.histograms := by
  unfold counted
  split <;> rfl

theorem requestSeries_ne_faultSeries (ok : Bool) : requestSeries ok ≠ faultSeries := by
  intro h
  have hname : (requestSeries ok).name = faultSeries.name := by rw [h]
  exact absurd hname (by decide +revert)

theorem requestSeries_injective : Function.Injective requestSeries := by
  intro ok ok' h
  have htags : (requestSeries ok).tags = (requestSeries ok').tags := by rw [h]
  cases ok <;> cases ok' <;>
    first | rfl | exact absurd htags (by decide +kernel)

/-- A request is counted under the way it ended. -/
theorem counted_requests (m : Metrics) (ok ok' : Bool) (faults : Nat) :
    (counted m ok faults).counter (requestSeries ok') =
      m.counter (requestSeries ok') + if ok' = ok then 1 else 0 := by
  have hadded : (m.add (requestSeries ok) 1).counter (requestSeries ok') =
      m.counter (requestSeries ok') + if ok' = ok then 1 else 0 := by
    simp only [Metrics.counter_add, requestSeries_injective.eq_iff]
  unfold counted
  split
  · exact hadded
  · rw [Metrics.counter_add, if_neg (requestSeries_ne_faultSeries ok'), Int.add_zero, hadded]

/-- Faults are counted as many as there are. -/
theorem counted_faults (m : Metrics) (ok : Bool) (faults : Nat) :
    (counted m ok faults).counter faultSeries = m.counter faultSeries + faults := by
  have hadded : (m.add (requestSeries ok) 1).counter faultSeries = m.counter faultSeries := by
    rw [Metrics.counter_add, if_neg (requestSeries_ne_faultSeries ok).symm, Int.add_zero]
  unfold counted
  split
  · next hnone => rw [hadded, hnone, Int.natCast_zero, Int.add_zero]
  · rw [Metrics.counter_add, if_pos rfl, hadded]

/-- What is measured is counted and sampled, whether or not the size is noted too. -/
theorem measure_fst (m : Metrics) (ok : Bool) (faults : Nat) (elapsed : Float) (size : Nat) :
    (measure m ok faults elapsed size).1 =
        ((counted m ok faults).observe timeSeries (.float elapsed)).1 ∨
      (measure m ok faults elapsed size).1 =
        ((counted m ok faults).observe timeSeries (.float elapsed)).1.setGauge sizeSeries
          (.int size) := by
  rw [measure_eq]
  split
  · next hobserve => exact .inl (by rw [hobserve])
  · next hobserve => exact .inr (by rw [hobserve])

theorem measure_limit (m : Metrics) (ok : Bool) (faults : Nat) (elapsed : Float) (size : Nat) :
    (measure m ok faults elapsed size).1.limit = m.limit := by
  have hobserved := ((counted m ok faults).observe_keeps timeSeries (.float elapsed)).1
  rw [counted_limit] at hobserved
  rcases measure_fst m ok faults elapsed size with hmeasure | hmeasure <;> rw [hmeasure] <;>
    exact hobserved

/-- Counting a request changes the counters, whatever becomes of the histogram. -/
theorem measure_counter (m : Metrics) (ok : Bool) (faults : Nat) (elapsed : Float) (size : Nat)
    (k : SeriesKey) :
    (measure m ok faults elapsed size).1.counter k = (counted m ok faults).counter k := by
  have hobserved := ((counted m ok faults).observe_keeps timeSeries (.float elapsed)).2.1
  have hcounter := congrArg (fun t => (t.get? k).getD 0) hobserved
  rcases measure_fst m ok faults elapsed size with hmeasure | hmeasure <;> rw [hmeasure] <;>
    exact hcounter

/-- As long as histograms can be made, counting succeeds: the time is the last sample, and the
size of the registry is noted. -/
theorem measure_of_limit_le (hlimit : m.limit ≤ Metrics.greatestLimit) (ok : Bool) (faults : Nat)
    (elapsed : Float) (size : Nat) :
    ∃ m', measure m ok faults elapsed size = (m', .ok ()) ∧
      samples m' = Metrics.lastOf m.limit (samples m ++ [elapsed]) ∧
      m'.gauges.get? sizeSeries = some (.int size) := by
  have hroom : ¬(Metrics.greatestLimit < (counted m ok faults).limit ∧
      (counted m ok faults).histograms.get? timeSeries = none) := by
    rw [counted_limit]
    exact fun h => Nat.not_lt.mpr hlimit h.1
  have hobserve : (counted m ok faults).observe timeSeries (.float elapsed) =
      (((counted m ok faults).openHistogram timeSeries).sample timeSeries elapsed, .ok ()) := by
    rw [Metrics.observe, if_neg hroom]
    rfl
  refine ⟨_, by rw [measure_eq, hobserve], ?_, ?_⟩
  · exact (Metrics.sample_openHistogram _ _ _ _).trans (by rw [if_pos rfl, samples,
      counted_limit, counted_histograms])
  · simp only [Metrics.setGauge, Table.get?_put, if_true]

/-- Where no histogram can be made and there is none of times yet, counting fails behind the
counters. -/
theorem measure_of_limit_lt (hlarge : Metrics.greatestLimit < m.limit)
    (hnone : m.histograms.get? timeSeries = none) (ok : Bool) (faults : Nat) (elapsed : Float)
    (size : Nat) :
    measure m ok faults elapsed size = (counted m ok faults, fail .limitTooLarge) := by
  have hfull : Metrics.greatestLimit < (counted m ok faults).limit ∧
      (counted m ok faults).histograms.get? timeSeries = none := by
    rw [counted_limit, counted_histograms]
    exact ⟨hlarge, hnone⟩
  rw [measure_eq, Metrics.observe, if_pos hfull]

end Aggregator

end UsageReport
