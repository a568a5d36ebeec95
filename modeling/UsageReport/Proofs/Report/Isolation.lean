/-
Isolation of faults.  With isolation, the walk through a registry of ordinary providers always
comes to its end: after every entry the envelope holds what the deliveries so far leave of
their entries, and the names of those lost are listed.  Telling of a fault changes the log, the
files and the counters, but neither the calls nor the traces.
-/
import Mathlib.Data.List.Nodup
import UsageReport.Proofs.ErrorLog.Rows
import UsageReport.Proofs.Report.Delivery
import UsageReport.Proofs.Report.Envelope

namespace UsageReport

open Text (CodePoint)

/-- The marker of an entry that was lost. -/
def markerText (settings : Settings) : List CodePoint :=
  .char '"' :: settings.faultMarker.points ++ Text.points "\":\"provider_fault\""

/-- What a delivery leaves of its entry: its text, or the marker. -/
def Delivery.segment (settings : Settings) (d : Delivery) : List CodePoint :=
  if d.fails settings then markerText settings else d.text

/-- The entries that deliveries leave, with their names. -/
def segments (settings : Settings) (delivered : List (Entry × Delivery)) :
    List (Name × List CodePoint) :=
  delivered.map fun p => (p.1.name, p.2.segment settings)

/-- The names of the entries that are lost, in order. -/
def lostNames (settings : Settings) (delivered : List (Entry × Delivery)) : List Name :=
  (delivered.filter fun p => p.2.fails settings).map (·.1.name)

/-- The second world has the calls given on top of those of the first, under the same trace,
and of the metrics only what the sink counts is changed. -/
structure World.Follows (sink : Sink) (w w' : World) (calls : List CallRecord) : Prop where
  calls : w'.calls = w.calls ++ calls
  traces : w'.traces = w.traces
  metrics : sink.Alters w.metrics w'.metrics

theorem World.Follows.trans {sink : Sink} {w w' w'' : World} {calls calls' : List CallRecord}
    (h : w.Follows sink w' calls) (h' : w'.Follows sink w'' calls') :
    w.Follows sink w'' (calls ++ calls') where
  calls := by rw [h'.calls, h.calls, List.append_assoc]
  traces := h'.traces.trans h.traces
  metrics := h.metrics.trans h'.metrics

theorem World.follows_noteCall (sink : Sink) (w : World) (call : CallRecord) :
    w.Follows sink (w.noteCall call) [call] := ⟨rfl, rfl, sink.alters_refl _⟩

theorem Sink.report_follows (sink : Sink) (w : World) (f : Fault) (trace : TraceId)
    (provider : Name) : w.Follows sink (sink.report w f trace provider).1 [] := by
  have hcalls : w.calls = w.calls ++ [] := (List.append_nil _).symm
  cases sink with
  | none => exact ⟨hcalls, rfl, Sink.alters_refl _ _⟩
  | failing f' _ => exact ⟨hcalls, rfl, Sink.alters_refl _ _⟩
  | other answer _ => exact ⟨hcalls, rfl, Sink.alters_refl _ _⟩
  | log l =>
      have hmetrics := l.report_metrics w.clock.stamp ⟨w.files, w.metrics⟩ f (.ofPoints trace)
        (.text "provider") [(.text "provider", provider.value)]
      have halters : (Sink.log l).Alters w.metrics (l.report w.clock.stamp ⟨w.files, w.metrics⟩ f
          (.ofPoints trace) (.text "provider") [(.text "provider", provider.value)]).1.metrics := by
        rcases hmetrics with hsame | ⟨hcounts, code, hadded⟩
        · rw [hsame]
          exact Sink.alters_refl _ _
        · rw [hadded]
          exact Sink.alters_add hcounts _ _ code
      simp only [Sink.report]
      split
      · next effects reported hok =>
        rw [hok] at halters
        exact ⟨hcalls, rfl, halters⟩
      · next effects failure herror =>
        rw [herror] at halters
        exact ⟨hcalls, rfl, halters⟩

namespace Assembly

variable {settings : Settings} {sink : Sink} {full : Value}

theorem faultPiece_eq (settings : Settings) : faultPiece settings = markerText settings := by
  have hrest : Text.points "\":\"" ++ Text.points faultWord ++ [.char '"'] =
      Text.points "\":\"provider_fault\"" := by decide
  rw [faultPiece, markerText, ← hrest]
  simp only [List.cons_append, List.append_assoc]

/-- Telling of a fault makes no calls, whatever the sink does. -/
theorem tellFault_follows (sink : Sink) (w : World) (provider : Name) (f : Fault) :
    w.Follows sink (tellFault sink w provider f) [] := by
  have hsink := sink.report_follows (w.logs (.providerFault (faultTrace w) provider f.className))
    f (faultTrace w) provider
  unfold tellFault
  simp only
  split
  · next told hreport =>
    rw [hreport] at hsink
    exact ⟨hsink.calls, hsink.traces, hsink.metrics⟩
  · next told failure hreport =>
    rw [hreport] at hsink
    exact ⟨hsink.calls, hsink.traces, hsink.metrics⟩

/-- The world once the provider of an entry was called, and its mishap, if any, was told. -/
def visit (settings : Settings) (sink : Sink) (full : Value) (w : World) (e : Entry) : World :=
  match (e.collect w.calls full w.traces.bound).mishap settings with
  | none => w.noteCall (e.record full)
  | some f => tellFault sink (w.noteCall (e.record full)) e.name f

theorem visit_follows (settings : Settings) (sink : Sink) (full : Value) (w : World) (e : Entry) :
    w.Follows sink (visit settings sink full w e) [e.record full] := by
  have hcalled := w.follows_noteCall sink (e.record full)
  unfold visit
  split
  · exact hcalled
  · next f _ => exact hcalled.trans (tellFault_follows sink _ e.name f)

theorem visits_follow (settings : Settings) (sink : Sink) (full : Value) (w : World)
    (entries : List Entry) :
    w.Follows sink (entries.foldl (visit settings sink full) w)
      (entries.map (·.record full)) := by
  induction entries generalizing w with
  | nil => exact ⟨by simp, rfl, sink.alters_refl _⟩
  | cons e rest ih => exact (visit_follows settings sink full w e).trans (ih _)

/-- With isolation, an entry is either lost or has the texts of its delivery. -/
theorem collect_isolated (hisolate : settings.isolateFaults = true) (sink : Sink) (full : Value)
    (w : World) {e : Entry} (hordinary : e.provider.IsOrdinary) {d : Delivery}
    (hd : e.collect w.calls full w.traces.bound = d) :
    collect settings sink full w e =
      (visit settings sink full w e, .ok (if d.fails settings then none else some d.texts)) := by
  cases hfails : d.fails settings with
  | false =>
      simp [collect_eq, visit, hd, usable_of_not_fails hfails, Delivery.mishap_eq_none hfails]
  | true =>
      obtain ⟨f, hf⟩ := Delivery.exists_mishap hfails
      have hcatch : f.isCatchable = true :=
        Delivery.mishap_isCatchable (fun f hf =>
          Entry.fault_isCatchable hordinary (hd ▸ hf)) hf
      simp [collect_eq, visit, hd, usable_of_mishap hf, hcatch, hisolate, hf]

/-- The walk has put what the deliveries given leave of their entries, and lists those lost. -/
structure Walk.Covers (s : Walk) (settings : Settings) (delivered : List (Entry × Delivery)) :
    Prop where
  envelope : s.envelope.Holds (segments settings delivered)
  faults : s.faults = lostNames settings delivered

/-- One more entry is covered once its delivery, or the marker for it, is put. -/
theorem Walk.Covers.put {s : Walk} {delivered : List (Entry × Delivery)}
    (h : s.Covers settings delivered) {e : Entry}
    (hname : e.name ∉ delivered.map (·.1.name)) (d : Delivery) :
    ∃ s', s.put settings e.name (if d.fails settings then none else some d.texts) = .ok s' ∧
      s'.Covers settings (delivered ++ [(e, d)]) := by
  have hnew : e.name ∉ (segments settings delivered).map (·.1) := by
    simpa [segments, Function.comp_def] using hname
  cases hfails : d.fails settings with
  | false =>
      obtain ⟨added, hadd, hholds⟩ := h.envelope.add hnew d.texts
      refine ⟨⟨added, s.faults⟩, by simp [Walk.put, hadd], ?_, ?_⟩
      · simpa [segments, Delivery.segment, hfails, Delivery.text] using hholds
      · simp [lostNames, hfails, h.faults]
  | true =>
      obtain ⟨added, hadd, hholds⟩ := h.envelope.add hnew [faultPiece settings]
      refine ⟨⟨added, s.faults ++ [e.name]⟩, ?_, ?_, ?_⟩
      · rw [List.map_singleton] at hadd
        simp [Walk.put, hadd]
      · simpa [segments, Delivery.segment, hfails, faultPiece_eq] using hholds
      · simp [lostNames, hfails, h.faults]

/-- With isolation, a walk visits all entries and covers them on top of those covered before. -/
theorem walk_isolated (hisolate : settings.isolateFaults = true) (sink : Sink) (full : Value)
    {w : World} {s : Walk} {delivered : List (Entry × Delivery)}
    (hcovers : s.Covers settings delivered)
    {entries : List Entry} (hordinary : ∀ e ∈ entries, e.provider.IsOrdinary)
    (hnames : (delivered.map (·.1.name) ++ entries.map (·.name)).Nodup) :
    ∃ s', walk settings sink full w s entries =
        (entries.foldl (visit settings sink full) w, .ok s') ∧
      s'.Covers settings (delivered ++ deliveries full w.traces.bound w.calls entries) := by
  induction entries generalizing w s delivered with
  | nil => exact ⟨s, rfl, by simpa [deliveries] using hcovers⟩
  | cons e rest ih =>
      have hcollect := collect_isolated hisolate sink full w
        (hordinary e List.mem_cons_self) rfl
      have hfollows := visit_follows settings sink full w e
      have hname : e.name ∉ delivered.map (·.1.name) := fun hmem =>
        List.disjoint_of_nodup_append hnames hmem List.mem_cons_self
      obtain ⟨s₁, hput, hcovers₁⟩ := hcovers.put hname
        (e.collect w.calls full w.traces.bound)
      obtain ⟨s₂, hwalk, hcovers₂⟩ := ih hcovers₁
        (fun e' hmem => hordinary e' (List.mem_cons_of_mem _ hmem))
        (w := visit settings sink full w e) (by simpa using hnames)
      refine ⟨s₂, ?_, ?_⟩
      · simp only [walk, hcollect, hput, hwalk, List.foldl_cons]
      · simpa [deliveries, hfollows.traces, hfollows.calls] using hcovers₂

/-- A walk that covers all deliveries finishes with the text of the report. -/
theorem Walk.Covers.finish {s : Walk} {delivered : List (Entry × Delivery)}
    (h : s.Covers settings delivered) :
    s.finish = .ok ⟨reportText (segments settings delivered), delivered.length,
      lostNames settings delivered⟩ := by
  simp [Walk.finish, h.envelope.build, h.envelope.close_count, h.faults, segments]

/-- An assembly is a walk through the registry that starts with nothing. -/
theorem exists_start (settings : Settings) (sink : Sink) (w : World) (registry : Registry)
    (full : Value) :
    ∃ start : Walk, start.Covers settings [] ∧
      (∀ w' s, walk settings sink full w start registry.entries = (w', .ok s) →
        run settings sink w registry full = (w', s.finish)) ∧
      ∀ w' f, walk settings sink full w start registry.entries = (w', .error f) →
        run settings sink w registry full = (w', .error f) := by
  obtain ⟨envelope, hnew, hholds⟩ := Envelope.new_holds
  refine ⟨⟨envelope, []⟩, ⟨hholds, rfl⟩, fun w' s hwalk => ?_, fun w' f hwalk => ?_⟩
  · simp only [run, hnew, hwalk]
  · simp only [run, hnew, hwalk]

/-- With isolation, an assembly of ordinary providers ends well, and visits them all. -/
theorem run_isolated_visits (hisolate : settings.isolateFaults = true) (sink : Sink) (w : World)
    {registry : Registry} (hordinary : registry.IsOrdinary) (full : Value) :
    run settings sink w registry full =
      (registry.entries.foldl (visit settings sink full) w,
        .ok ⟨reportText (segments settings (registry.deliveries w full)), registry.size,
          lostNames settings (registry.deliveries w full)⟩) := by
  obtain ⟨start, hcovers, hrun, -⟩ := exists_start settings sink w registry full
  obtain ⟨s, hwalk, hcovers'⟩ := walk_isolated hisolate sink full (w := w) hcovers hordinary
    (by simpa using registry.names_nodup)
  rw [hrun _ _ hwalk, hcovers'.finish, List.nil_append, length_deliveries,
    Registry.deliveries, Registry.size]

/-- With isolation, an assembly of ordinary providers ends well, and calls them all. -/
theorem run_isolated (hisolate : settings.isolateFaults = true) (sink : Sink) (w : World)
    {registry : Registry} (hordinary : registry.IsOrdinary) (full : Value) :
    ∃ w', run settings sink w registry full =
        (w', .ok ⟨reportText (segments settings (registry.deliveries w full)), registry.size,
          lostNames settings (registry.deliveries w full)⟩) ∧
      w.Follows sink w' (registry.entries.map (·.record full)) :=
  ⟨_, run_isolated_visits hisolate sink w hordinary full,
    visits_follow settings sink full w registry.entries⟩

/-- With isolation, an assembly of ordinary providers never fails, whatever the sink does.  Its
text has one entry for every provider, in order: what the provider delivered, or the marker if
the call raised, left a piece that is no text, or was refused by the check.  Every provider is
called once, in order: what it delivers is its answer to a call that tells it the wish for details
if it takes it, besides the number of its calls and the trace, and that call is the one noted. -/
theorem isolation_keeps_every_entry (settings : Settings)
    (hisolate : settings.isolateFaults = true) (sink : Sink) (w : World) (registry : Registry)
    (hordinary : registry.IsOrdinary) (full : Value) :
    ∃ w', run settings sink w registry full =
        (w', .ok {
          text := Text.points "\x7b\"memory_stats\":\x7b" ++
            [.char ','].intercalate ((registry.deliveries w full).map fun p =>
              .char '"' :: p.1.name.points ++ Text.points "\":\x7b" ++
                (if p.2.fails settings then
                  .char '"' :: settings.faultMarker.points ++
                    Text.points "\":\"provider_fault\""
                else p.2.text) ++ Text.points "\x7d") ++
            Text.points "\x7d\x7d"
          entries := registry.entries.length
          faults := ((registry.deliveries w full).filter fun p => p.2.fails settings).map
            (·.1.name) }) ∧
      (registry.deliveries w full).map (·.1) = registry.entries ∧
      (∀ before e after, registry.entries = before ++ e :: after →
        (registry.deliveries w full)[before.length]? = some (e, e.provider.behave {
          number := callCount (w.calls ++ before.map fun earlier =>
            ⟨earlier.provider.identity, if earlier.provider.acceptsFull then some full else none⟩)
              e.provider.identity + 1
          full := if e.provider.acceptsFull then some full else none
          trace := w.traces.bound })) ∧
      w'.calls = w.calls ++ registry.entries.map fun e =>
        ⟨e.provider.identity, if e.provider.acceptsFull then some full else none⟩ := by
  obtain ⟨w', hrun, hfollows⟩ := run_isolated hisolate sink w hordinary full
  refine ⟨w', ?_, registry.deliveries_map_fst w full, ?_, hfollows.calls⟩
  · rw [hrun, reportText, segments, List.map_map]
    rfl
  · intro before e after hentries
    rw [Registry.deliveries, hentries]
    exact getElem?_deliveries w.calls before e after

theorem isolation_keeps_every_entry_sample :
    ({} : Settings).isolateFaults = true ∧ Registry.sample.IsOrdinary ∧
      ∃ w', run {} .none .fresh .sample (.bool true) =
        (w', .ok ⟨Text.points ("\x7b\"memory_stats\":\x7b\"files\":\x7b\"open\":2\x7d," ++
          "\"users\":\x7b\"error\":\"provider_fault\"\x7d," ++
          "\"chats\":\x7b\"error\":\"provider_fault\"\x7d\x7d\x7d"), 3,
          [⟨Text.points "users", by decide, by decide⟩,
            ⟨Text.points "chats", by decide, by decide⟩]⟩) ∧
        w'.calls = [⟨0, some (.bool true)⟩, ⟨1, none⟩, ⟨2, some (.bool true)⟩] := by
  refine ⟨rfl, Registry.sample_isOrdinary, ?_⟩
  obtain ⟨w', hrun, -, -, hcalls⟩ := isolation_keeps_every_entry {} rfl .none .fresh .sample
    Registry.sample_isOrdinary (.bool true)
  refine ⟨w', hrun.trans ?_, hcalls⟩
  rfl

end Assembly

end UsageReport
