/-
The trail of an assembly.  Whatever its mode and however it ends, an assembly does two things to
the world: it calls providers, and it tells of faults.  A fault that is told of costs one line in
the log, and one more if the sink raises.  So the log, the rows and the counters of an assembly
are those of the faults told, and all of that follows from one induction over the trail.
-/
import UsageReport.Proofs.Report.FaultLog

namespace UsageReport

open Assembly (faultTrace tellFault)

/-- A fault that was told of, and what the sink raised for it, if anything. -/
structure Telling where
  provider : Name
  fault : Fault
  refusal : Option Fault

namespace Telling

/-- The fault by the name of its provider. -/
def loss (t : Telling) : Name × Fault := (t.provider, t.fault)

/-- The lines that telling leaves in the log: one about the fault, and one about the sink if it
raised. -/
def lines (trace : TraceId) (t : Telling) : List LogEvent :=
  .providerFault trace t.provider t.fault.className ::
    (t.refusal.map fun raised => LogEvent.sinkFailed trace t.provider raised.className).toList

/-- Whether the sink took the fault. -/
def accepted (t : Telling) : Bool := t.refusal.isNone

/-- A line of tellings is about a fault that was told, or about the sink that raised then. -/
theorem mem_lines_cases {trace : TraceId} {told : List Telling} {event : LogEvent}
    (h : event ∈ told.flatMap (·.lines trace)) :
    ∃ t ∈ told, event = .providerFault trace t.provider t.fault.className ∨
      ∃ raised, t.refusal = some raised ∧
        event = .sinkFailed trace t.provider raised.className := by
  obtain ⟨t, ht, hline⟩ := List.mem_flatMap.mp h
  refine ⟨t, ht, ?_⟩
  rcases List.mem_cons.mp hline with hfault | hsink
  · exact Or.inl hfault
  · obtain ⟨raised, hraised, hevent⟩ := Option.map_eq_some_iff.mp (Option.mem_toList.mp hsink)
    exact Or.inr ⟨raised, hraised, hevent.symm⟩

/-- All lines of tellings are warnings. -/
theorem level_of_mem_lines {trace : TraceId} {told : List Telling} {event : LogEvent}
    (h : event ∈ told.flatMap (·.lines trace)) : event.level = warningLevel := by
  obtain ⟨t, -, rfl | ⟨raised, -, rfl⟩⟩ := mem_lines_cases h <;> rfl

end Telling

/-- What a sink raises when it is told of a fault, which is logged before. -/
def Assembly.refusal (sink : Sink) (w : World) (provider : Name) (f : Fault) : Option Fault :=
  match (sink.report (w.logs (.providerFault (faultTrace w) provider f.className)) f
      (faultTrace w) provider).2 with
  | .ok () => none
  | .error raised => some raised

/-- The second world is the first after calls of providers and tellings of faults, in any order,
and after nothing else. -/
inductive World.Trail (sink : Sink) : World → List CallRecord → List Telling → World → Prop
  | done (w : World) : Trail sink w [] [] w
  | call {w w' : World} {calls : List CallRecord} {told : List Telling} (record : CallRecord)
      (rest : Trail sink (w.noteCall record) calls told w') :
      Trail sink w (record :: calls) told w'
  /-- The sink is asked in the world as it is then. -/
  | tell {w w' : World} {calls : List CallRecord} {told : List Telling} (provider : Name)
      (f : Fault) (rest : Trail sink (tellFault sink w provider f) calls told w') :
      Trail sink w calls (⟨provider, f, Assembly.refusal sink w provider f⟩ :: told) w'

/-- A sink writes no lines to the log of the assembly. -/
theorem Sink.report_log (sink : Sink) (w : World) (f : Fault) (trace : TraceId) (provider : Name) :
    (sink.report w f trace provider).1.log = w.log := by
  cases sink with
  | none | failing | other => rfl
  | log l =>
      simp only [Sink.report]
      split <;> rfl

namespace Assembly

theorem tellFault_lines (sink : Sink) (w : World) (provider : Name) (f : Fault) :
    (tellFault sink w provider f).log =
      w.log ++ Telling.lines (faultTrace w) ⟨provider, f, refusal sink w provider f⟩ := by
  have hlog := sink.report_log (w.logs (.providerFault (faultTrace w) provider f.className)) f
    (faultTrace w) provider
  unfold tellFault refusal
  simp only
  generalize sink.report _ f _ provider = answered at hlog ⊢
  obtain ⟨u, raised | ⟨⟩⟩ := answered <;>
    simp only at hlog <;> simp [hlog, World.logs, Telling.lines]

/-- An error log takes a fault exactly if the call that tells of it succeeds. -/
theorem refusal_log (log : ErrorLog) (w : World) (provider : Name) (f : Fault) :
    refusal (.log log) w provider f =
      match (log.perform w.effects (lossCall w provider f)).2 with
      | .ok () => none
      | .error raised => some raised := by
  simp only [refusal, Sink.report, ErrorLog.perform, lossCall]
  generalize hreport : log.report (w.logs _).clock.stamp _ f _ _ _ = written
  have hreport' : log.report w.clock.stamp w.effects f (.ofPoints (faultTrace w)) (.text "provider")
      [(.text "provider", provider.value)] = written := hreport
  rw [hreport']
  obtain ⟨s, _ | _⟩ := written <;> rfl

end Assembly

namespace World.Trail

open Assembly (lossCall lossCalls)

variable {sink : Sink} {w w' w'' : World} {calls calls' : List CallRecord}
  {told told' : List Telling}

theorem trans (h : w.Trail sink calls told w') (h' : w'.Trail sink calls' told' w'') :
    w.Trail sink (calls ++ calls') (told ++ told') w'' := by
  induction h with
  | done w => exact h'
  | call record _ ih => exact .call record (ih h')
  | tell provider f _ ih => exact .tell provider f (ih h')

/-- A trail makes its calls, keeps the traces, and alters the metrics as the sink may. -/
theorem follows (h : w.Trail sink calls told w') : w.Follows sink w' calls := by
  induction h with
  | done w => exact ⟨(List.append_nil _).symm, rfl, sink.alters_refl _⟩
  | call record _ ih => exact (World.follows_noteCall sink _ record).trans ih
  | tell provider f _ ih => exact (Assembly.tellFault_follows sink _ provider f).trans ih

/-- The log of a trail has the lines of what was told, in order, and no others. -/
theorem log (h : w.Trail sink calls told w') :
    w'.log = w.log ++ told.flatMap (·.lines (faultTrace w)) := by
  induction h with
  | done w => exact (List.append_nil _).symm
  | call record _ ih => exact ih
  | @tell w w' calls told provider f _ ih =>
      have htrace : faultTrace (tellFault sink w provider f) = faultTrace w := by
        rw [faultTrace, faultTrace, (Assembly.tellFault_follows sink w provider f).traces]
      rw [ih, htrace, Assembly.tellFault_lines, List.flatMap_cons, List.append_assoc]

/-- A trail changes an error log as the calls do that tell of the faults; those that succeed are
the calls of the faults that the log took. -/
theorem performAll {log : ErrorLog} (h : w.Trail (.log log) calls told w') :
    log.performAll w.effects (lossCalls w (told.map Telling.loss)) =
      (w'.effects, lossCalls w ((told.filter (·.accepted)).map Telling.loss)) := by
  induction h with
  | done w => rfl
  | call record _ ih => exact ih
  | @tell w w' calls told provider f _ ih =>
      obtain ⟨heffects, hclock⟩ := Assembly.tellFault_log log w provider f
      have htraces := (Assembly.tellFault_follows (.log log) w provider f).traces
      have hloss : lossCall (tellFault (.log log) w provider f) = lossCall w := by
        funext provider f
        simp only [lossCall, faultTrace, hclock, htraces]
      rw [lossCalls, lossCalls, hloss, heffects] at ih
      have hrefusal := Assembly.refusal_log log w provider f
      rw [lossCalls, lossCalls, List.map_cons, List.map_cons, ErrorLog.performAll]
      simp only [Telling.loss] at ih ⊢
      generalize log.perform w.effects (lossCall w provider f) = performed at ih hrefusal ⊢
      obtain ⟨s, raised | ⟨⟩⟩ := performed
      · simp only [List.filter_cons, Telling.accepted, hrefusal, Option.isNone_some, ih,
          Bool.false_eq_true, if_false]
      · simp only [List.filter_cons, Telling.accepted, hrefusal, Option.isNone_none, ih, if_true,
          List.map_cons, Telling.loss]

/-- The rows that a trail adds to an error log are those of the faults that the log took, in
order, and each is counted once. -/
theorem exists_rows {log : ErrorLog} (h : w.Trail (.log log) calls told w') :
    ∃ rows, List.Forall₂ (fun t row => (lossCall w t.provider t.fault).entry log = .ok row)
        (told.filter (·.accepted)) rows ∧
      log.Adds w.effects w'.effects rows ∧
      w'.metrics.total (Text.points "errors_total") =
        w.metrics.total (Text.points "errors_total") +
          if log.counts then (rows.length : Int) else 0 := by
  obtain ⟨rows, hentries, hadds⟩ := log.performAll_adds w.effects
    (lossCalls w (told.map Telling.loss))
  have htotal := log.performAll_total w.effects (lossCalls w (told.map Telling.loss))
  rw [h.performAll] at hentries hadds htotal
  rw [hentries.length_eq] at htotal
  simp only [lossCalls, List.map_map, List.forall₂_map_left_iff] at hentries
  exact ⟨rows, hentries, hadds, htotal⟩

end World.Trail

namespace Assembly

variable {settings : Settings} {sink : Sink} {full : Value}

/-- Collecting from a provider is a call, and a telling if the fault is contained. -/
theorem collect_trail (settings : Settings) (sink : Sink) (full : Value) (w : World) (e : Entry) :
    ∃ told, w.Trail sink [e.record full] told (collect settings sink full w e).1 := by
  unfold collect
  simp only
  split
  · exact ⟨[], .call _ (.done _)⟩
  · next f _ =>
    split
    · exact ⟨[], .call _ (.done _)⟩
    · split
      · exact ⟨_, .call _ (.tell e.name f (.done _))⟩
      · exact ⟨[], .call _ (.done _)⟩

/-- A walk leaves a trail, however it ends. -/
theorem walk_trail (settings : Settings) (sink : Sink) (full : Value) (w : World) (s : Walk)
    (entries : List Entry) :
    ∃ calls told, w.Trail sink calls told (walk settings sink full w s entries).1 := by
  induction entries generalizing w s with
  | nil => exact ⟨[], [], .done w⟩
  | cons e rest ih =>
      obtain ⟨told, hcollect⟩ := collect_trail settings sink full w e
      rw [walk]
      generalize collect settings sink full w e = collected at hcollect ⊢
      obtain ⟨u, f | pieces⟩ := collected
      · exact ⟨_, _, hcollect⟩
      · cases hput : s.put settings e.name pieces with
        | error f => exact ⟨_, _, by simpa only [hput] using hcollect⟩
        | ok s' =>
            obtain ⟨calls, told', hrest⟩ := ih u s'
            exact ⟨_, _, by simpa only [hput] using hcollect.trans hrest⟩

/-- An assembly leaves a trail, however it ends. -/
theorem run_trail (settings : Settings) (sink : Sink) (w : World) (registry : Registry)
    (full : Value) :
    ∃ calls told, w.Trail sink calls told (run settings sink w registry full).1 := by
  unfold run
  split
  · exact ⟨[], [], .done w⟩
  · next envelope _ =>
    obtain ⟨calls, told, h⟩ :=
      walk_trail settings sink full w ⟨envelope, []⟩ registry.entries
    refine ⟨calls, told, ?_⟩
    split <;> next hwalk => rwa [hwalk] at h

/-- A visit is a call, and a telling if there was a mishap. -/
theorem visit_trail (settings : Settings) (sink : Sink) (full : Value) (w : World) (e : Entry) :
    ∃ told, w.Trail sink [e.record full] told (visit settings sink full w e) ∧
      told.map Telling.loss =
        losses settings [(e, e.collect w.calls full w.traces.bound)] := by
  unfold visit
  cases hmishap : (e.collect w.calls full w.traces.bound).mishap settings with
  | none => exact ⟨[], .call _ (.done _), by simp [losses, hmishap]⟩
  | some f =>
      exact ⟨_, .call _ (.tell e.name f (.done _)), by simp [losses, hmishap, Telling.loss]⟩

/-- Visits tell of the mishaps of all deliveries, in order. -/
theorem visits_trail (settings : Settings) (sink : Sink) (full : Value) (w : World)
    (entries : List Entry) :
    ∃ told, w.Trail sink (entries.map (·.record full)) told
        (entries.foldl (visit settings sink full) w) ∧
      told.map Telling.loss =
        losses settings (deliveries full w.traces.bound w.calls entries) := by
  induction entries generalizing w with
  | nil => exact ⟨[], .done w, rfl⟩
  | cons e rest ih =>
      obtain ⟨first, hfirst, hloss⟩ := visit_trail settings sink full w e
      obtain ⟨others, hothers, hlosses⟩ := ih (visit settings sink full w e)
      have hfollows := visit_follows settings sink full w e
      refine ⟨first ++ others, hfirst.trans hothers, ?_⟩
      rw [hfollows.traces, hfollows.calls] at hlosses
      rw [List.map_append, hloss, hlosses, deliveries, losses, losses, losses,
        ← List.filterMap_append, List.singleton_append]

/-- With isolation, an assembly of ordinary providers tells of the mishaps of all deliveries, and
lists their providers. -/
theorem run_isolated_trail (hisolate : settings.isolateFaults = true) (sink : Sink) (w : World)
    {registry : Registry} (hordinary : registry.IsOrdinary) (full : Value) :
    ∃ w' a told, run settings sink w registry full = (w', .ok a) ∧
      w.Trail sink (registry.entries.map (·.record full)) told w' ∧
      told.map Telling.loss = losses settings (registry.deliveries w full) ∧
      a.faults = told.map Telling.provider := by
  obtain ⟨told, htrail, hlosses⟩ := visits_trail settings sink full w registry.entries
  refine ⟨_, _, told, run_isolated_visits hisolate sink w hordinary full, htrail, hlosses, ?_⟩
  have hnames := congrArg (List.map Prod.fst) hlosses
  rw [losses_map_fst, List.map_map] at hnames
  exact hnames.symm

end Assembly

end UsageReport
