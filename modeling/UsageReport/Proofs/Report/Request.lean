/-
Requests and their promises.  A request of an open aggregator assembles the report under its
own trace, counts itself, and only then resolves the promise, once, with what the assembly gave
or with the very fault that ended it.  Counting cannot fail as long as histograms can be made.
-/
import UsageReport.Proofs.Aggregator.Measure
import UsageReport.Proofs.Promise
import UsageReport.Proofs.Report.FaultModes
import UsageReport.Proofs.Report.Trail

namespace UsageReport

/-- The world in which the report of a request is assembled: its trace is bound. -/
def World.underTrace (w : World) : World :=
  { w with traces := w.traces.inherit.2.bind w.traces.inherit.1 }

/-- The trace of a request: the one bound, or a fresh one. -/
def World.requestTrace (w : World) : Option TraceId := some w.traces.inherit.1

namespace Assembly

/-- In either mode, an assembly of ordinary providers keeps the traces and the limit of the
metrics, and ends in no interruption. -/
theorem run_of_ordinary (settings : Settings) (sink : Sink) (w : World) {registry : Registry}
    (hordinary : registry.IsOrdinary) (full : Value) :
    ∃ w' outcome calls, run settings sink w registry full = (w', outcome) ∧
      w.Follows sink w' calls ∧ ∀ f, outcome = .error f → f.isCatchable = true := by
  cases hmode : settings.isolateFaults with
  | true =>
      obtain ⟨w', hrun, hfollows⟩ := run_isolated hmode sink w hordinary full
      refine ⟨w', _, _, hrun, hfollows, fun f hf => ?_⟩
      cases hf
  | false =>
      rcases fine_or_first_failure settings (registry.deliveries w full) with
        hfine | ⟨before, p, after, hsplit, hbefore, hp⟩
      · refine ⟨_, _, _, run_of_fine hfine, ⟨rfl, rfl, sink.alters_refl _⟩, fun f hf => ?_⟩
        cases hf
      · obtain ⟨cause, hcause⟩ := Delivery.exists_mishap hp
        refine ⟨_, _, _, run_of_first_failure hmode hordinary hsplit hbefore hcause,
          ⟨rfl, rfl, sink.alters_refl _⟩, fun f hf => ?_⟩
        cases hf
        exact abortion_isCatchable p.1.name cause

end Assembly

namespace Aggregator

variable {a : Aggregator} {α : Type}

/-- How the assembly for a request ends. -/
def assembled (a : Aggregator) (w : World) (full : Value) : Outcome Assembly :=
  (Assembly.run a.settings a.sink w.underTrace a.registry (.bool full.truth)).2

/-- Counting a request changes the metrics at most. -/
theorem record_world (a : Aggregator) (w : World) (ok : Bool) (faults : Nat) :
    (a.record w ok faults).1 = { w with metrics := if a.records then
      (measure w.metrics ok faults w.clock.elapsed a.registry.size).1 else w.metrics } := by
  unfold record
  split <;> rfl

/-- The line about how an assembly ended; nothing is logged about an interruption. -/
def closingLines (trace : TraceId) (full : Bool) : Outcome Assembly → List LogEvent
  | .ok r => [.requestDone trace r.entries r.faults.length r.text.length full]
  | .error f => if f.isCatchable then [.requestFailed trace f.logCode] else []

theorem trace_of_mem_closingLines {trace : TraceId} {full : Bool} {outcome : Outcome Assembly}
    {event : LogEvent} (h : event ∈ closingLines trace full outcome) : event.trace = trace := by
  unfold closingLines at h
  split at h
  · rw [List.mem_singleton.mp h, LogEvent.trace]
  · split at h
    · rw [List.mem_singleton.mp h, LogEvent.trace]
    · exact absurd h List.not_mem_nil

/-- An answer logs how the assembly ended and counts the request, and changes nothing else in the
world, whatever becomes of the promise. -/
theorem answer_closing (a : Aggregator) (w : World) (trace : TraceId) (full : Bool)
    (deliver : Report → α) (p : Promise α) (outcome : Outcome Assembly) :
    ∃ m, (a.answer w trace full deliver p outcome).1 =
        { w with log := w.log ++ closingLines trace full outcome, metrics := m } ∧
      m.limit = w.metrics.limit := by
  have hcounted (event : LogEvent) {ok : Bool} {faults : Nat} {u : World}
      (hrecord : (a.record (w.logs event) ok faults).1 = u) :
      ∃ m, u = { w with log := w.log ++ [event], metrics := m } ∧ m.limit = w.metrics.limit := by
    rw [record_world] at hrecord
    refine ⟨_, hrecord.symm, ?_⟩
    split
    · exact measure_limit _ _ _ _ _
    · rfl
  cases outcome with
  | ok r =>
      simp only [answer]
      split <;> next hrecord => exact hcounted _ (congrArg Prod.fst hrecord)
  | error f =>
      cases hcatch : f.isCatchable with
      | false => exact ⟨w.metrics, by simp [answer, closingLines, hcatch], rfl⟩
      | true =>
          simp only [answer, closingLines, hcatch, Bool.not_true, Bool.false_eq_true, if_false,
            if_true]
          split <;> next hrecord => exact hcounted _ (congrArg Prod.fst hrecord)

/-- An answer logs a line under the trace of the request, at most, and counts the request, and
changes nothing else in the world. -/
theorem answer_world (a : Aggregator) (w : World) (trace : TraceId) (full : Bool)
    (deliver : Report → α) (p : Promise α) (outcome : Outcome Assembly) :
    ∃ added m, (a.answer w trace full deliver p outcome).1 =
        { w with log := w.log ++ added, metrics := m } ∧
      (∀ event ∈ added, event.trace = trace) ∧ m.limit = w.metrics.limit := by
  obtain ⟨m, hworld, hlimit⟩ := a.answer_closing w trace full deliver p outcome
  exact ⟨_, m, hworld, fun _ => trace_of_mem_closingLines, hlimit⟩

/-- Counting a request succeeds, and changes no trace. -/
theorem record_of_limit_le (a : Aggregator) {w : World}
    (hlimit : a.records = true → w.metrics.limit ≤ Metrics.greatestLimit) (ok : Bool)
    (faults : Nat) : ∃ w', a.record w ok faults = (w', .ok ()) ∧ w'.traces = w.traces := by
  cases hrecords : a.records with
  | false => exact ⟨w, by simp [record, hrecords], rfl⟩
  | true =>
      obtain ⟨m, hm, -⟩ := measure_of_limit_le (hlimit hrecords) ok faults w.clock.elapsed
        a.registry.size
      exact ⟨{ w with metrics := m }, by simp [record, hrecords, hm], rfl⟩

/-- A request of an open aggregator assembles under its trace, answers, and restores the binding. -/
theorem request_eq (hopen : a.closed = false) {w w₁ : World} {full : Value}
    {assembled : Outcome Assembly}
    (hrun : Assembly.run a.settings a.sink w.underTrace a.registry (.bool full.truth) =
      (w₁, assembled)) (deliver : Report → α) (p : Promise α) :
    a.request w deliver full p =
      let answered := a.answer w₁ w.traces.inherit.1 full.truth deliver p assembled
      ({ answered.1 with traces := answered.1.traces.restore w.traces }, answered.2) := by
  have hensure : a.ensureOpen "get_memory_stats" = .ok () := by simp [ensureOpen, hopen]
  rw [World.underTrace] at hrun
  simp only [request, hensure, hrun]

/-- What a request makes of its promise, by the way its assembly ended. -/
def resolution (w : World) (deliver : Report → α) (p : Promise α) :
    Outcome Assembly → Promise α × Outcome Unit
  | .ok r => p.setValue w.requestTrace (deliver ⟨r.text⟩)
  | .error f => p.setError w.requestTrace f

section Counted

variable {w : World} (hlimit : a.records = true → w.metrics.limit ≤ Metrics.greatestLimit)
include hlimit

/-- Where counting succeeds, a report is put into the promise. -/
theorem answer_ok (trace : TraceId) (full : Bool) (deliver : Report → α) (p : Promise α)
    (r : Assembly) : ∃ w', a.answer w trace full deliver p (.ok r) =
      (w', p.setValue w.traces.bound (deliver ⟨r.text⟩)) := by
  obtain ⟨w', hrecord, hkept⟩ := a.record_of_limit_le (w := w.logs (.requestDone trace r.entries
    r.faults.length r.text.length full)) hlimit true r.faults.length
  refine ⟨w', ?_⟩
  simp only [answer, hrecord, hkept]
  rfl

/-- Where counting succeeds, an ordinary fault is put into the promise. -/
theorem answer_error (trace : TraceId) (full : Bool) (deliver : Report → α) (p : Promise α)
    {f : Fault} (hcatch : f.isCatchable = true) :
    ∃ w', a.answer w trace full deliver p (.error f) = (w', p.setError w.traces.bound f) := by
  obtain ⟨w', hrecord, hkept⟩ := a.record_of_limit_le (w := w.logs (.requestFailed trace f.logCode))
    hlimit false 1
  refine ⟨w', ?_⟩
  simp only [answer, hcatch, hrecord, hkept]
  rfl

end Counted

/-- A request whose assembly is not interrupted resolves its promise with what the assembly gave,
if it can be counted. -/
theorem request_of_not_interrupted (hopen : a.closed = false) {w : World} {full : Value}
    (hcatch : ∀ f, a.assembled w full = .error f → f.isCatchable = true)
    (hlimit : a.records = true → w.metrics.limit ≤ Metrics.greatestLimit)
    (deliver : Report → α) (p : Promise α) :
    ∃ w', a.request w deliver full p = (w', resolution w deliver p (a.assembled w full)) := by
  obtain ⟨calls, told, htrail⟩ := Assembly.run_trail a.settings a.sink w.underTrace a.registry
    (.bool full.truth)
  cases hrun : Assembly.run a.settings a.sink w.underTrace a.registry (.bool full.truth) with
  | mk w₁ assembled =>
      rw [hrun] at htrail
      have hassembled : a.assembled w full = assembled := congrArg Prod.snd hrun
      have hfollows := htrail.follows
      rw [hassembled] at hcatch ⊢
      have htraces : w₁.traces.bound = w.requestTrace := congrArg TraceState.bound hfollows.traces
      have hcounted : a.records = true → w₁.metrics.limit ≤ Metrics.greatestLimit := by
        rw [hfollows.metrics.limit]
        exact hlimit
      obtain ⟨w₂, hanswer⟩ : ∃ w₂, a.answer w₁ w.traces.inherit.1 full.truth deliver p
          assembled = (w₂, resolution w deliver p assembled) := by
        cases assembled with
        | ok r =>
            rw [resolution, ← htraces]
            exact answer_ok hcounted _ _ deliver p r
        | error f =>
            rw [resolution, ← htraces]
            exact answer_error hcounted _ _ deliver p (hcatch f rfl)
      refine ⟨{ w₂ with traces := w₂.traces.restore w.traces }, ?_⟩
      rw [request_eq hopen hrun, hanswer]

/-- A request resolves its promise once, with what the assembly gave, and with nothing else. -/
theorem request_of_open (hopen : a.closed = false) (hordinary : a.registry.IsOrdinary)
    {w : World} (hlimit : a.records = true → w.metrics.limit ≤ Metrics.greatestLimit)
    (deliver : Report → α) (full : Value) (p : Promise α) :
    ∃ w', a.request w deliver full p = (w', resolution w deliver p (a.assembled w full)) := by
  obtain ⟨w₁, outcome, calls, hrun, -, hcatch⟩ :=
    Assembly.run_of_ordinary a.settings a.sink w.underTrace hordinary (.bool full.truth)
  have hassembled : a.assembled w full = outcome := congrArg Prod.snd hrun
  exact request_of_not_interrupted hopen (hassembled ▸ hcatch) hlimit deliver p

/-- A request to an open aggregator settles a promise that nobody resolved, exactly once: with
the report if the assembly ended well, and else with the fault that ended it.  What the caller's
function does is all that the request may raise, and it changes nothing any more.  A promise
that was resolved before stays as it is, and the request is refused.  The bound on the metrics
is the one under which histograms can be made; all limits that settings allow are below it. -/
theorem request_settles_promise_once (a : Aggregator) (hopen : a.closed = false)
    (hordinary : a.registry.IsOrdinary) (w : World)
    (hlimit : a.records = true → w.metrics.limit ≤ Metrics.greatestLimit)
    (deliver : Report → α) (full : Value) (p : Promise α) :
    (p.claimed = false → p.future = .pending →
      (∀ r, a.assembled w full = .ok r → ∃ w', a.request w deliver full p =
        (w', p.settled w.requestTrace (.value (deliver ⟨r.text⟩)) p.onValue
          (.value (deliver ⟨r.text⟩)), Reaction.outcome p.onValue)) ∧
      ∀ f, a.assembled w full = .error f → ∃ w', a.request w deliver full p =
        (w', p.settled w.requestTrace (.error f) p.onError (.error f),
          Reaction.outcome p.onError)) ∧
    (p.claimed = true →
      ∃ w', a.request w deliver full p = (w', p, .error Promise.alreadyResolved)) := by
  obtain ⟨w', hrequest⟩ := request_of_open hopen hordinary hlimit deliver full p
  refine ⟨fun hclaimed hpending => ⟨fun r hr => ⟨w', ?_⟩, fun f hf => ⟨w', ?_⟩⟩,
    fun hclaimed => ⟨w', ?_⟩⟩
  · rw [hrequest, hr, resolution, Promise.setValue, Promise.resolve_of_pending hclaimed hpending]
  · rw [hrequest, hf, resolution, Promise.setError, Promise.resolve_of_pending hclaimed hpending]
  · rw [hrequest]
    cases a.assembled w full with
    | ok r => rw [resolution, Promise.setValue, Promise.resolve_of_claimed hclaimed]
    | error f => rw [resolution, Promise.setError, Promise.resolve_of_claimed hclaimed]

/-- An open aggregator over the sample registry, that stops at the first fault. -/
def strictSample : Aggregator :=
  { settings := { isolateFaults := false }, registry := .sample, sink := .none, host := none
    measured := true }

theorem request_settles_promise_once_sample :
    strictSample.closed = false ∧ strictSample.registry.IsOrdinary ∧
      (strictSample.records = true → World.fresh.metrics.limit ≤ Metrics.greatestLimit) ∧
      ∃ w' f, strictSample.request .fresh id (.bool true) (.new (some .accept) (some .again)) =
        (w', Promise.settled (.new (some .accept) (some .again)) World.fresh.requestTrace
          (.error f) (some .again) (.error f), .error Promise.alreadyResolved) := by
  have hlimit : World.fresh.metrics.limit ≤ Metrics.greatestLimit := by decide
  refine ⟨rfl, Registry.sample_isOrdinary, fun _ => hlimit, ?_⟩
  have hsettles := (request_settles_promise_once strictSample rfl Registry.sample_isOrdinary
    .fresh (fun _ => hlimit) id (.bool true) (.new (some .accept) (some .again))).1 rfl rfl
  obtain ⟨w', hrequest⟩ := hsettles.2 _ rfl
  exact ⟨w', _, hrequest⟩

/-! ### Metrics that can make no histogram -/

/-- Counting a request fails if it needs a histogram and none can be made. -/
theorem record_of_limit_lt (hrecords : a.records = true) {w : World}
    (hlarge : Metrics.greatestLimit < w.metrics.limit)
    (hnone : w.metrics.histograms.get? timeSeries = none) (ok : Bool) (faults : Nat) :
    ∃ w', a.record w ok faults = (w', fail .limitTooLarge) := by
  refine ⟨{ w with metrics := counted w.metrics ok faults }, ?_⟩
  rw [record, if_pos hrecords, measure_of_limit_lt hlarge hnone]

/-- The bound on the metrics is needed.  Beyond it, the first request that is counted runs into a
histogram that cannot be made, before it comes to its promise, and leaves that as it is. -/
theorem request_of_limit_lt (hopen : a.closed = false) (hordinary : a.registry.IsOrdinary)
    (hrecords : a.records = true) {w : World} (hlarge : Metrics.greatestLimit < w.metrics.limit)
    (hnone : w.metrics.histograms.get? timeSeries = none) (deliver : Report → α) (full : Value)
    (p : Promise α) : ∃ w', a.request w deliver full p = (w', p, fail .limitTooLarge) := by
  obtain ⟨w₁, outcome, calls, hrun, hfollows, hcatch⟩ :=
    Assembly.run_of_ordinary a.settings a.sink w.underTrace hordinary (.bool full.truth)
  have hlarge₁ : Metrics.greatestLimit < w₁.metrics.limit := by
    rw [hfollows.metrics.limit]
    exact hlarge
  have hnone₁ : w₁.metrics.histograms.get? timeSeries = none := by
    rw [hfollows.metrics.histograms]
    exact hnone
  obtain ⟨w₂, hanswer⟩ : ∃ w₂, a.answer w₁ w.traces.inherit.1 full.truth deliver p outcome =
      (w₂, p, fail .limitTooLarge) := by
    cases outcome with
    | ok r =>
        obtain ⟨w₂, hrecord⟩ := a.record_of_limit_lt hrecords (w := w₁.logs (.requestDone
          w.traces.inherit.1 r.entries r.faults.length r.text.length full.truth))
          hlarge₁ hnone₁ true r.faults.length
        exact ⟨w₂, by rw [answer, hrecord]; rfl⟩
    | error f =>
        obtain ⟨w₂, hrecord⟩ := a.record_of_limit_lt hrecords (w := w₁.logs (.requestFailed
          w.traces.inherit.1 f.logCode)) hlarge₁ hnone₁ false 1
        exact ⟨w₂, by simp only [answer, hcatch f rfl, hrecord]; rfl⟩
  refine ⟨{ w₂ with traces := w₂.traces.restore w.traces }, ?_⟩
  rw [request_eq hopen hrun, hanswer]

end Aggregator

end UsageReport
