/-
How assemblies and requests may end, whatever the providers do.  An assembly that fails passes an
interruption on, or without isolation tells of a provider's fault; nothing else comes out of it.  A
request resolves a fresh promise with that, unless an interruption passed or nothing can be counted.
-/
import UsageReport.Proofs.Report.Request

namespace UsageReport

/-- The fault interrupts the program, or tells of the fault of a provider. -/
def Fault.EndsAssembly (f : Fault) : Prop :=
  f.isCatchable = false ∨ ∃ provider cause, f = Assembly.abortion provider cause

/-- What isolation does not catch is of the class of an interruption. -/
theorem Fault.className_of_uncatchable {f : Fault} (h : f.isCatchable = false) :
    f.className ∈ interruptions := by
  unfold isCatchable at h
  split at h
  · next name _ => simpa [className] using h
  · simp [className, Failure.className, interruptions]
  · cases h

/-- What tells of a fault of a provider has a code that is a text. -/
theorem Fault.EndsAssembly.logCode_eq {f : Fault} (h : f.EndsAssembly)
    (hcatch : f.isCatchable = true) : ∃ code, f.logCode = .text code := by
  obtain ⟨provider, cause, rfl⟩ := h.resolve_left (by simp [hcatch])
  unfold Assembly.abortion
  split <;> exact ⟨_, rfl⟩

namespace Assembly

variable {settings : Settings} {sink : Sink} {full : Value}

/-- A provider is called: its entry is put, or its fault ends the assembly. -/
theorem collect_cases (settings : Settings) (sink : Sink) (full : Value) (w : World) (e : Entry) :
    ∃ w', ∃ d : Delivery, (∃ f, f.EndsAssembly ∧ collect settings sink full w e = (w', .error f)) ∨
      collect settings sink full w e =
        (w', .ok (if d.fails settings then none else some d.texts)) := by
  by_cases hfails : (e.collect w.calls full w.traces.bound).fails settings = true
  · obtain ⟨f, hf⟩ := Delivery.exists_mishap hfails
    by_cases hcatch : f.isCatchable = true
    · by_cases hisolate : settings.isolateFaults = true
      · refine ⟨tellFault sink (w.noteCall (e.record full)) e.name f,
          e.collect w.calls full w.traces.bound, Or.inr ?_⟩
        simp [collect_eq, usable_of_mishap hf, hcatch, hisolate, hfails]
      · refine ⟨w.noteCall (e.record full), e.collect w.calls full w.traces.bound,
          Or.inl ⟨abortion e.name f, Or.inr ⟨e.name, f, rfl⟩, ?_⟩⟩
        simp [collect_eq, usable_of_mishap hf, hcatch, hisolate]
    · refine ⟨w.noteCall (e.record full), e.collect w.calls full w.traces.bound,
        Or.inl ⟨f, Or.inl (Bool.eq_false_iff.mpr hcatch), ?_⟩⟩
      simp [collect_eq, usable_of_mishap hf, hcatch]
  · refine ⟨w.noteCall (e.record full), e.collect w.calls full w.traces.bound, Or.inr ?_⟩
    rw [collect_of_fine w rfl (Bool.eq_false_iff.mpr hfails), if_neg hfails]

/-- A walk over entries under new names ends with a fault of a provider, or covers some
deliveries. -/
theorem walk_cases (sink : Sink) (full : Value) (w : World) {s : Walk}
    {delivered : List (Entry × Delivery)} (hcovers : s.Covers settings delivered)
    {entries : List Entry} (hnames : (delivered.map (·.1.name) ++ entries.map (·.name)).Nodup) :
    (∃ w' f, f.EndsAssembly ∧ walk settings sink full w s entries = (w', .error f)) ∨
      ∃ w' s' delivered', s'.Covers settings delivered' ∧
        walk settings sink full w s entries = (w', .ok s') := by
  induction entries generalizing w s delivered with
  | nil => exact .inr ⟨w, s, delivered, hcovers, rfl⟩
  | cons e rest ih =>
      obtain ⟨w₁, d, ⟨f, hf, hcollect⟩ | hcollect⟩ := collect_cases settings sink full w e
      · refine .inl ⟨w₁, f, hf, ?_⟩
        rw [walk, hcollect]
      · have hname : e.name ∉ delivered.map (·.1.name) := fun hmem =>
          List.disjoint_of_nodup_append hnames hmem List.mem_cons_self
        obtain ⟨s₁, hput, hcovers₁⟩ := hcovers.put hname d
        have hwalk : walk settings sink full w s (e :: rest) =
            walk settings sink full w₁ s₁ rest := by simp only [walk, hcollect, hput]
        rw [hwalk]
        exact ih w₁ hcovers₁ (by simpa using hnames)

/-- An assembly fails only through a provider. -/
theorem run_cases (settings : Settings) (sink : Sink) (w : World) (registry : Registry)
    (full : Value) :
    (∃ w' f, f.EndsAssembly ∧ run settings sink w registry full = (w', .error f)) ∨
      ∃ w' a, run settings sink w registry full = (w', .ok a) := by
  obtain ⟨start, hcovers, hwell, hfails⟩ := exists_start settings sink w registry full
  rcases walk_cases sink full w hcovers (by simpa using registry.names_nodup) with
    ⟨w', f, hf, hwalk⟩ | ⟨w', s, delivered, hcovers', hwalk⟩
  · exact .inl ⟨w', f, hf, hfails _ _ hwalk⟩
  · exact .inr ⟨w', _, (hwell _ _ hwalk).trans (by rw [hcovers'.finish])⟩

/-- What ends an assembly is an interruption or tells of a provider. -/
theorem endsAssembly_of_run {settings : Settings} {sink : Sink} {w w' : World} {registry : Registry}
    {full : Value} {f : Fault} (h : run settings sink w registry full = (w', .error f)) :
    f.EndsAssembly := by
  rcases run_cases settings sink w registry full with ⟨_, f', hf', hrun⟩ | ⟨_, a, hrun⟩
  · rw [hrun] at h
    cases h
    exact hf'
  · rw [hrun] at h
    cases h

end Assembly

namespace Aggregator

variable {a : Aggregator} {α : Type}

/-- A sample is taken, unless no histogram can be made. -/
theorem observe_float_cases (m : Metrics) (key : SeriesKey) (x : Float) :
    ∃ m', m.observe key (.float x) = (m', .ok ()) ∨
      m.observe key (.float x) = (m', .error .limitTooLarge) := by
  unfold Metrics.observe
  split
  · exact ⟨m, .inr rfl⟩
  · exact ⟨_, .inl rfl⟩

theorem measure_cases (m : Metrics) (ok : Bool) (faults : Nat) (elapsed : Float) (size : Nat) :
    ∃ m', measure m ok faults elapsed size = (m', .ok ()) ∨
      measure m ok faults elapsed size = (m', fail .limitTooLarge) := by
  rw [measure_eq]
  obtain ⟨m', hobserve | hobserve⟩ := observe_float_cases (counted m ok faults) timeSeries elapsed
  · rw [hobserve]
    exact ⟨m'.setGauge sizeSeries (.int size), .inl rfl⟩
  · rw [hobserve]
    exact ⟨m', .inr rfl⟩

theorem record_cases (a : Aggregator) (w : World) (ok : Bool) (faults : Nat) :
    ∃ w', a.record w ok faults = (w', .ok ()) ∨
      a.record w ok faults = (w', fail .limitTooLarge) := by
  by_cases hrecords : a.records = true
  · obtain ⟨m, hm | hm⟩ := measure_cases w.metrics ok faults w.clock.elapsed a.registry.size
    · exact ⟨{ w with metrics := m }, .inl (by simp [record, hrecords, hm])⟩
    · exact ⟨{ w with metrics := m }, .inr (by simp [record, hrecords, hm])⟩
  · exact ⟨w, .inl (by simp [record, hrecords])⟩

/-- A request of an open aggregator on a fresh promise raises nothing but interruptions, as long
as it can be counted; the promise then holds a report, or the fault of a provider. -/
theorem request_fresh_cases (hopen : a.closed = false) (w : World) (deliver : Report → α)
    (full : Value) :
    ∃ w' p outcome, a.request w deliver full (.new none none) = (w', p, outcome) ∧
      ((∃ f, outcome = .error f ∧ (f.isCatchable = false ∨ f = .failed .limitTooLarge)) ∨
        outcome = .ok () ∧ ((∃ x, p.result = .ok x) ∨
          ∃ provider cause, p.result = .error (Assembly.abortion provider cause))) := by
  rcases Assembly.run_cases a.settings a.sink w.underTrace a.registry (.bool full.truth) with
    ⟨w₁, f, hf, hrun⟩ | ⟨w₁, r, hrun⟩
  · rw [request_eq hopen hrun]
    by_cases hcatch : f.isCatchable = true
    · obtain ⟨provider, cause, rfl⟩ := hf.resolve_left (by simp [hcatch])
      obtain ⟨w₂, hrecord | hrecord⟩ := a.record_cases (w₁.logs (.requestFailed
        w.traces.inherit.1 (Assembly.abortion provider cause).logCode)) false 1
      · refine ⟨_, _, _, rfl, .inr ?_⟩
        simp only [answer, hcatch, hrecord, Promise.setError]
        rw [Promise.resolve_of_pending rfl rfl]
        exact ⟨rfl, .inr ⟨provider, cause, rfl⟩⟩
      · refine ⟨_, _, _, rfl, .inl ⟨_, ?_, .inr rfl⟩⟩
        simp only [answer, hcatch, hrecord]
        rfl
    · refine ⟨_, _, _, rfl, .inl ⟨f, ?_, .inl (Bool.eq_false_iff.mpr hcatch)⟩⟩
      simp [answer, hcatch]
  · rw [request_eq hopen hrun]
    obtain ⟨w₂, hrecord | hrecord⟩ := a.record_cases (w₁.logs (.requestDone
      w.traces.inherit.1 r.entries r.faults.length r.text.length full.truth)) true
      r.faults.length
    · refine ⟨_, _, _, rfl, .inr ?_⟩
      simp only [answer, hrecord, Promise.setValue]
      rw [Promise.resolve_of_pending rfl rfl]
      exact ⟨rfl, .inl ⟨_, rfl⟩⟩
    · refine ⟨_, _, _, rfl, .inl ⟨_, ?_, .inr rfl⟩⟩
      simp only [answer, hrecord]
      rfl

end Aggregator

end UsageReport
