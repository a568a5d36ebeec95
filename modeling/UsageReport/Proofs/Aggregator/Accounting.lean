/-
The accounts of an aggregator.  A request that reaches the assembly is counted once, by the way
the assembly ended, whatever becomes of its promise; a request of an aggregator that was torn down
is counted nowhere.  So the metrics tell the assemblies of a whole run.
-/
import Mathlib.Algebra.Ring.Nat
import UsageReport.Aggregator.Operation
import UsageReport.Proofs.Report.Request

namespace UsageReport

namespace Aggregator

variable {a : Aggregator} {α : Type}

/-- How many faults a request counts: those listed in the report, or the one that ended it. -/
def faultCount : Outcome Assembly → Nat
  | .ok r => r.faults.length
  | .error _ => 1

/-! ### One request -/

/-- Answering counts how the assembly ended before it turns to the promise. -/
theorem answer_metrics (a : Aggregator) (w : World) (trace : TraceId) (full : Bool)
    (deliver : Report → α) (p : Promise α) {outcome : Outcome Assembly}
    (hcatch : ∀ f, outcome = .error f → f.isCatchable = true) :
    (a.answer w trace full deliver p outcome).1.metrics = if a.records then
      (measure w.metrics outcome.isOk (faultCount outcome) w.clock.elapsed a.registry.size).1
        else w.metrics := by
  cases outcome with
  | ok r =>
      have hrecord := a.record_world (w.logs (.requestDone trace r.entries r.faults.length
        r.text.length full)) true r.faults.length
      simp only [answer]
      split
      · next w' f hrecorded =>
        rw [hrecorded] at hrecord
        exact congrArg World.metrics hrecord
      · next w' hrecorded =>
        rw [hrecorded] at hrecord
        exact congrArg World.metrics hrecord
  | error f =>
      have hrecord := a.record_world (w.logs (.requestFailed trace f.logCode)) false 1
      simp only [answer, hcatch f rfl, Bool.not_true, Bool.false_eq_true, if_false]
      split
      · next w' f' hrecorded =>
        rw [hrecorded] at hrecord
        exact congrArg World.metrics hrecord
      · next w' hrecorded =>
        rw [hrecorded] at hrecord
        exact congrArg World.metrics hrecord

/-- A request of an open aggregator counts the way its assembly ended, on top of what reports of
faults counted, and on nothing else. -/
theorem request_metrics (hopen : a.closed = false) (hordinary : a.registry.IsOrdinary) (w : World)
    (deliver : Report → α) (full : Value) (p : Promise α) :
    ∃ m elapsed, a.sink.Alters w.metrics m ∧
      (a.request w deliver full p).1.metrics = if a.records then
        (measure m (a.assembled w full).isOk (faultCount (a.assembled w full)) elapsed
          a.registry.size).1 else m := by
  obtain ⟨w₁, outcome, calls, hrun, hfollows, hcatch⟩ :=
    Assembly.run_of_ordinary a.settings a.sink w.underTrace hordinary (.bool full.truth)
  have hassembled : a.assembled w full = outcome := congrArg Prod.snd hrun
  refine ⟨w₁.metrics, w₁.clock.elapsed, hfollows.metrics, ?_⟩
  rw [hassembled, ← a.answer_metrics w₁ w.traces.inherit.1 full.truth deliver p hcatch]
  exact congrArg (fun answered => answered.1.metrics) (request_eq hopen hrun deliver p)

/-! ### The accounts -/

/-- The metrics tell of assemblies that ended as given, over a registry of some size. -/
structure Accounts (bound size : Nat) (done : List (Outcome Assembly)) (m : Metrics) : Prop where
  limit : m.limit = bound
  requests : ∀ ok, m.counter (requestSeries ok) = done.countP (·.isOk == ok)
  faults : m.counter faultSeries = (done.map faultCount).sum
  times : bound ≤ Metrics.greatestLimit → (samples m).length = min bound done.length
  gauge : bound ≤ Metrics.greatestLimit →
    m.gauges.get? sizeSeries = if done.isEmpty then none else some (.int size)

theorem accounts_new (limit : Int) (size : Nat) :
    Accounts (Metrics.new limit).limit size [] (.new limit) where
  limit := rfl
  requests := fun _ => rfl
  faults := rfl
  times := fun _ => (Nat.min_zero _).symm
  gauge := fun _ => rfl

namespace Accounts

variable {bound size : Nat} {done : List (Outcome Assembly)} {m m' : Metrics}

/-- What a sink counts is in no account. -/
theorem of_alters (h : Accounts bound size done m) {sink : Sink} (halters : sink.Alters m m') :
    Accounts bound size done m' where
  limit := halters.limit.trans h.limit
  requests := by
    intro ok
    have hname : (requestSeries ok).name ≠ Text.points "errors_total" := by decide +revert
    exact (halters.counters _ hname).trans (h.requests ok)
  faults := (halters.counters faultSeries (by decide)).trans h.faults
  times := by
    intro hlimit
    rw [samples, halters.histograms]
    exact h.times hlimit
  gauge := by
    intro hlimit
    rw [halters.gauges]
    exact h.gauge hlimit

/-- One more assembly is in the accounts once it is counted. -/
theorem measure (h : Accounts bound size done m) (outcome : Outcome Assembly) (elapsed : Float) :
    Accounts bound size (done ++ [outcome])
      (measure m outcome.isOk (faultCount outcome) elapsed size).1 where
  limit := (measure_limit m _ _ elapsed size).trans h.limit
  requests := by
    intro ok
    rw [measure_counter, counted_requests, h.requests, List.countP_append, List.countP_singleton]
    by_cases hok : ok = outcome.isOk
    · rw [if_pos hok, if_pos (beq_iff_eq.mpr hok.symm), Int.natCast_add]
      rfl
    · rw [if_neg hok, if_neg (fun heq => hok (beq_iff_eq.mp heq).symm), Int.natCast_add]
      rfl
  faults := by
    rw [measure_counter, counted_faults, h.faults, List.map_append, List.sum_append,
      Int.natCast_add]
    simp
  times := by
    intro hlimit
    obtain ⟨m', hmeasure, hsamples, -⟩ := measure_of_limit_le (h.limit ▸ hlimit) outcome.isOk
      (faultCount outcome) elapsed size
    have hbefore := h.times hlimit
    rw [hmeasure, hsamples, Metrics.length_lastOf, h.limit, List.length_append, hbefore,
      List.length_append, List.length_singleton, List.length_singleton]
    omega
  gauge := by
    intro hlimit
    obtain ⟨m', hmeasure, -, hgauge⟩ := measure_of_limit_le (h.limit ▸ hlimit) outcome.isOk
      (faultCount outcome) elapsed size
    rw [hmeasure, hgauge]
    simp

end Accounts

/-! ### Whole runs -/

/-- What an aggregator becomes: only whether it runs or is closed changes, and with closing it lets
go of its registry. -/
structure Becomes (a b : Aggregator) : Prop where
  settings : b.settings = a.settings
  sink : b.sink = a.sink
  measured : b.measured = a.measured
  registry : b.closed = false → b.registry = a.registry

theorem Becomes.records {b : Aggregator} (h : a.Becomes b) : b.records = a.records := by
  rw [Aggregator.records, Aggregator.records, h.measured, h.settings]

namespace Scene

variable {s : Scene}

/-- How the assembly ends that an operation makes, if it makes one. -/
def assembly? (s : Scene) : Operation α → Option (Outcome Assembly)
  | .request _ full _ =>
    if s.aggregator.closed then none else some (s.aggregator.assembled s.world full)
  | _ => none

/-- How all assemblies end that operations make. -/
def assemblies : Scene → List (Operation α) → List (Outcome Assembly)
  | _, [] => []
  | s, op :: rest => (s.assembly? op).toList ++ assemblies (s.perform op).1 rest

theorem perform_becomes (h : a.Becomes s.aggregator) (op : Operation α) :
    a.Becomes (s.perform op).1.aggregator := by
  cases op with
  | startUp =>
      by_cases hclosed : s.aggregator.closed = true
      · simpa [perform, startUp, ensureOpen, hclosed, bind, Except.bind] using h
      · have hopen : s.aggregator.closed = false := Bool.eq_false_iff.mpr hclosed
        simp only [perform, startUp, ensureOpen, hopen, Bool.false_eq_true, if_false]
        exact ⟨h.settings, h.sink, h.measured, fun _ => h.registry hopen⟩
  | tearDown =>
      by_cases hclosed : s.aggregator.closed = true
      · simpa [perform, tearDown, ensureOpen, hclosed, bind, Except.bind] using h
      · have hopen : s.aggregator.closed = false := Bool.eq_false_iff.mpr hclosed
        simp only [perform, tearDown, ensureOpen, hopen, Bool.false_eq_true, if_false]
        refine ⟨h.settings, h.sink, h.measured, fun hopened => ?_⟩
        cases hopened
  | currentState updates => exact h
  | request deliver full p => exact h
  | elsewhere change => exact h

/-- A closed aggregator counts nothing. -/
theorem perform_metrics_of_no_assembly {op : Operation α} (hnone : s.assembly? op = none) :
    (s.perform op).1.world.metrics = s.world.metrics := by
  cases op with
  | startUp =>
      simp only [perform]
      split <;> rfl
  | tearDown =>
      simp only [perform]
      split <;> rfl
  | currentState updates => rfl
  | request deliver full p =>
      by_cases hclosed : s.aggregator.closed = true
      · simp [perform, Aggregator.request, ensureOpen, hclosed]
      · simp [assembly?, hclosed] at hnone
  | elsewhere change => rfl

/-- An operation changes the metrics by the assembly that it makes, and by what reports of faults
count meanwhile. -/
theorem perform_metrics (h : a.Becomes s.aggregator) (hordinary : a.registry.IsOrdinary)
    {op : Operation α} {outcome : Outcome Assembly} (hmakes : s.assembly? op = some outcome) :
    ∃ m elapsed, a.sink.Alters s.world.metrics m ∧
      (s.perform op).1.world.metrics = if a.records then
        (measure m outcome.isOk (faultCount outcome) elapsed a.registry.size).1 else m := by
  cases op with
  | request deliver full p =>
      by_cases hclosed : s.aggregator.closed = true
      · simp [assembly?, hclosed] at hmakes
      · have hopen : s.aggregator.closed = false := Bool.eq_false_iff.mpr hclosed
        have hregistry := h.registry hopen
        obtain ⟨m, elapsed, halters, hmetrics⟩ := request_metrics hopen (hregistry ▸ hordinary)
          s.world deliver full p
        have houtcome : s.aggregator.assembled s.world full = outcome := by
          simpa [assembly?, hclosed] using hmakes
        rw [houtcome, h.records, hregistry] at hmetrics
        exact ⟨m, elapsed, h.sink ▸ halters, hmetrics⟩
  | startUp => cases hmakes
  | tearDown => cases hmakes
  | currentState updates => cases hmakes
  | elsewhere change => cases hmakes

/-- The accounts of a run are those of its assemblies, on top of those before. -/
theorem accounts_run (hordinary : a.registry.IsOrdinary) (hrecords : a.records = true)
    {bound : Nat} {done : List (Outcome Assembly)} (hbecomes : a.Becomes s.aggregator)
    (haccounts : Accounts bound a.registry.size done s.world.metrics)
    (ops : List (Operation α)) :
    Accounts bound a.registry.size (done ++ s.assemblies ops) (s.run ops).world.metrics := by
  induction ops generalizing s done with
  | nil => simpa [assemblies, run] using haccounts
  | cons op rest ih =>
      have hbecomes' := perform_becomes hbecomes op
      rw [assemblies, ← List.append_assoc]
      apply ih hbecomes'
      cases hmakes : s.assembly? op with
      | none =>
          rw [perform_metrics_of_no_assembly hmakes]
          simpa using haccounts
      | some outcome =>
          obtain ⟨m, elapsed, halters, hmetrics⟩ := perform_metrics hbecomes hordinary hmakes
          rw [hmetrics, if_pos hrecords]
          exact (haccounts.of_alters halters).measure outcome elapsed

/-- An aggregator that keeps no accounts leaves the metrics to the sink. -/
theorem alters_run (hordinary : a.registry.IsOrdinary) (hrecords : a.records = false)
    (hbecomes : a.Becomes s.aggregator) (ops : List (Operation α)) :
    a.sink.Alters s.world.metrics (s.run ops).world.metrics := by
  induction ops generalizing s with
  | nil => exact a.sink.alters_refl _
  | cons op rest ih =>
      apply Sink.Alters.trans _ (ih (perform_becomes hbecomes op))
      cases hmakes : s.assembly? op with
      | none =>
          rw [perform_metrics_of_no_assembly hmakes]
          exact a.sink.alters_refl _
      | some outcome =>
          obtain ⟨m, elapsed, halters, hmetrics⟩ := perform_metrics hbecomes hordinary hmakes
          rw [hmetrics, if_neg (by simp [hrecords])]
          exact halters

end Scene

/-- After any run that starts with new metrics, and whatever became of the promises, the metrics
tell how the assemblies ended: how many well and how many not, how many faults there were, and
the size of the registry; of the times, the last ones are kept.  The greatest limit is the one up
to which histograms can be made; all limits that settings allow are below it.  Nothing else is
counted, and nothing at all once the aggregator was torn down.  An aggregator that does not record
leaves the metrics as the sink of the faults leaves them, which may count its own rows only. -/
theorem requests_are_accounted (a : Aggregator) (hordinary : a.registry.IsOrdinary) (limit : Int)
    (w : World) (hfresh : w.metrics = .new limit) (ops : List (Operation α)) :
    let done := Scene.assemblies ⟨a, w⟩ ops
    let last := Scene.run ⟨a, w⟩ ops
    let m := last.world.metrics
    (a.records = true →
      m.counter (requestSeries true) = done.countP (·.isOk) ∧
      m.counter (requestSeries false) = done.countP (!·.isOk) ∧
      m.counter faultSeries = (done.map faultCount).sum ∧
      (w.metrics.limit ≤ Metrics.greatestLimit →
        (samples m).length = min w.metrics.limit done.length ∧
        m.gauges.get? sizeSeries =
          if done.isEmpty then none else some (.int a.registry.size))) ∧
    (last.aggregator.closed = true → ∀ op : Operation α,
      last.assembly? op = none ∧ (last.perform op).1.world.metrics = m) ∧
    (a.records = false → a.sink.Alters w.metrics m) := by
  intro done last m
  have hbecomes : a.Becomes a := ⟨rfl, rfl, rfl, fun _ => rfl⟩
  refine ⟨fun hrecords => ?_, fun hclosed op => ?_, fun hrecords => ?_⟩
  · have hstart : Accounts (Metrics.new limit).limit a.registry.size [] w.metrics :=
      hfresh ▸ accounts_new limit a.registry.size
    have haccounts := Scene.accounts_run (s := ⟨a, w⟩) hordinary hrecords hbecomes hstart ops
    rw [← hfresh, List.nil_append] at haccounts
    refine ⟨?_, ?_, haccounts.faults, fun hlimit => ⟨haccounts.times hlimit,
      haccounts.gauge hlimit⟩⟩
    · simpa using haccounts.requests true
    · simpa using haccounts.requests false
  · have hnone : last.assembly? op = none := by
      cases op with
      | request deliver full p => exact if_pos hclosed
      | startUp => rfl
      | tearDown => rfl
      | currentState updates => rfl
      | elsewhere change => rfl
    exact ⟨hnone, Scene.perform_metrics_of_no_assembly hnone⟩
  · exact Scene.alters_run (s := ⟨a, w⟩) hordinary hrecords hbecomes ops

/-- Two requests of the sample registry, one of which is told to a function that raises, and one
more that comes too late. -/
def Operation.sample : List (Operation Report) :=
  [.startUp, .request id (.bool true) (.new none none),
    .request id .null (.new (some (.raise (.raised "ValueError" []))) none), .tearDown,
    .request id .null (.new none none)]

theorem requests_are_accounted_sample :
    Registry.sample.IsOrdinary ∧ World.fresh.metrics = .new 200 ∧
      ∃ m, (Scene.run ⟨{ strictSample with settings := {} }, .fresh⟩ Operation.sample).world.metrics
          = m ∧
        m.counter (requestSeries true) = 2 ∧ m.counter (requestSeries false) = 0 ∧
        m.counter faultSeries = 4 ∧ (samples m).length = 2 ∧
        m.gauges.get? sizeSeries = some (.int 3) := by
  refine ⟨Registry.sample_isOrdinary, rfl, _, rfl, ?_⟩
  have hlimit : World.fresh.metrics.limit ≤ Metrics.greatestLimit := by decide
  obtain ⟨haccounts, -, -⟩ := requests_are_accounted { strictSample with settings := {} }
    Registry.sample_isOrdinary 200 .fresh rfl Operation.sample
  obtain ⟨hok, herror, hfaults, hhistogram⟩ := haccounts rfl
  obtain ⟨htimes, hsize⟩ := hhistogram hlimit
  exact ⟨hok.trans rfl, herror.trans rfl, hfaults.trans rfl, htimes.trans rfl, hsize.trans rfl⟩

end Aggregator

end UsageReport
