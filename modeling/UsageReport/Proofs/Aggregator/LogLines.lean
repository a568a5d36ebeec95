/-
What the log tells of a request.  Whatever the mode and the providers, an assembly that gives a
report has called every provider once, and the report has an entry for each delivery.  The
aggregator logs one line about it, with the size of the report, the number of entries that were
lost and the number of characters, which is that of bytes for ASCII only.  An assembly that ends
with a fault is logged in one line with the code of the fault that the promise gets.
-/
import UsageReport.Proofs.Report.Ending
import UsageReport.Proofs.Text.Bytes

namespace UsageReport

open Text (CodePoint)

namespace Assembly

variable {settings : Settings} {sink : Sink} {full : Value} {w w' : World}

/-! ### Assemblies that give a report -/

/-- A collection that goes on gives the texts of the delivery, or nothing if the delivery fails;
its provider was called. -/
theorem collect_eq_ok {e : Entry} {pieces : Option (List (List CodePoint))}
    (h : collect settings sink full w e = (w', .ok pieces)) :
    pieces = (if (e.collect w.calls full w.traces.bound).fails settings then none
      else some (e.collect w.calls full w.traces.bound).texts) ∧
      w.Follows sink w' [e.record full] := by
  obtain ⟨told, htrail⟩ := collect_trail settings sink full w e
  rw [h] at htrail
  refine ⟨?_, htrail.follows⟩
  cases hfails : (e.collect w.calls full w.traces.bound).fails settings with
  | false =>
      simp only [collect_eq, usable_of_not_fails hfails, Prod.mk.injEq, Except.ok.injEq] at h
      simp [h.2]
  | true =>
      obtain ⟨f, hf⟩ := Delivery.exists_mishap hfails
      simp only [collect_eq, usable_of_mishap hf] at h
      split at h
      · cases h
      · split at h <;> cases h
        rfl

/-- A walk that comes to its end has covered all deliveries, and has called every provider. -/
theorem walk_eq_ok {s s' : Walk} {delivered : List (Entry × Delivery)}
    (hcovers : s.Covers settings delivered) {entries : List Entry}
    (hnames : (delivered.map (·.1.name) ++ entries.map (·.name)).Nodup)
    (h : walk settings sink full w s entries = (w', .ok s')) :
    s'.Covers settings (delivered ++ deliveries full w.traces.bound w.calls entries) ∧
      w.Follows sink w' (entries.map (·.record full)) := by
  induction entries generalizing w s delivered with
  | nil =>
      cases h
      exact ⟨by simpa [deliveries] using hcovers, by simp, rfl, sink.alters_refl _⟩
  | cons e rest ih =>
      rw [walk] at h
      cases hcollect : collect settings sink full w e with
      | mk u collected =>
          cases collected with
          | error f =>
              simp only [hcollect] at h
              cases h
          | ok pieces =>
              obtain ⟨rfl, hfollows⟩ := collect_eq_ok hcollect
              have hname : e.name ∉ delivered.map (·.1.name) := fun hmem =>
                List.disjoint_of_nodup_append hnames hmem List.mem_cons_self
              obtain ⟨s₁, hput, hcovers₁⟩ := hcovers.put hname
                (e.collect w.calls full w.traces.bound)
              simp only [hcollect, hput] at h
              obtain ⟨hcovers', hrest⟩ := ih hcovers₁ (by simpa using hnames) h
              refine ⟨?_, hfollows.trans hrest⟩
              simpa [deliveries, hfollows.traces, hfollows.calls] using hcovers'

/-- An assembly that gives a report has called every provider; the report has an entry for every
delivery and lists those that fail. -/
theorem run_eq_ok {registry : Registry} {r : Assembly}
    (h : run settings sink w registry full = (w', .ok r)) :
    r = ⟨reportText (segments settings (registry.deliveries w full)), registry.size,
        lostNames settings (registry.deliveries w full)⟩ ∧
      w.Follows sink w' (registry.entries.map (·.record full)) := by
  obtain ⟨start, hcovers, hok, herror⟩ := exists_start settings sink w registry full
  cases hwalk : walk settings sink full w start registry.entries with
  | mk u walked =>
      cases walked with
      | error f =>
          rw [herror u f hwalk] at h
          cases h
      | ok s =>
          obtain ⟨hcovers', hfollows⟩ := walk_eq_ok hcovers
            (by simpa using registry.names_nodup) hwalk
          rw [hok u s hwalk, hcovers'.finish] at h
          cases h
          rw [List.nil_append, length_deliveries]
          exact ⟨rfl, hfollows⟩

theorem length_lostNames (settings : Settings) (delivered : List (Entry × Delivery)) :
    (lostNames settings delivered).length = delivered.countP (·.2.fails settings) := by
  rw [lostNames, List.length_map, List.countP_eq_length_filter]

end Assembly

namespace Aggregator

variable {a : Aggregator} {α : Type}

/-! ### The lines of a request -/

/-- The messages of a level among lines; there is none for a line whose code has no text. -/
def messagesAt (level : Int) (lines : List LogEvent) : List (Option (List CodePoint)) :=
  (lines.filter (·.level == level)).map (·.message.toOption)

/-- What is told of faults are warnings, so the other messages are about the end. -/
theorem messagesAt_told {level : Int} (hlevel : level ≠ warningLevel) (trace : TraceId)
    (told : List Telling) (closing : List LogEvent) :
    messagesAt level (told.flatMap (·.lines trace) ++ closing) = messagesAt level closing := by
  have hnone : (told.flatMap (·.lines trace)).filter (·.level == level) = [] := by
    rw [List.filter_eq_nil_iff]
    intro event hevent heq
    exact hlevel ((beq_iff_eq.mp heq).symm.trans (Telling.level_of_mem_lines hevent))
  rw [messagesAt, List.filter_append, hnone, List.nil_append, messagesAt]

/-- What a request adds to the log, apart from warnings, is the line about how its assembly ended;
and the calls that it makes are those of the assembly. -/
theorem request_log (hopen : a.closed = false) (w : World) (deliver : Report → α) (full : Value)
    (p : Promise α) :
    ∃ trace added w' p' outcome, w.requestTrace = some trace ∧
      a.request w deliver full p = (w', p', outcome) ∧ w'.log = w.log ++ added ∧
      (∀ level, level ≠ warningLevel → messagesAt level added =
        messagesAt level (closingLines trace full.truth (a.assembled w full))) ∧
      w'.calls = (Assembly.run a.settings a.sink w.underTrace a.registry
        (.bool full.truth)).1.calls := by
  obtain ⟨trace, htrace⟩ : ∃ trace, trace = w.traces.inherit.1 := ⟨_, rfl⟩
  obtain ⟨calls, told, htrail⟩ := Assembly.run_trail a.settings a.sink w.underTrace a.registry
    (.bool full.truth)
  cases hrun : Assembly.run a.settings a.sink w.underTrace a.registry (.bool full.truth) with
  | mk w₁ assembled =>
      rw [hrun] at htrail
      have hassembled : a.assembled w full = assembled := congrArg Prod.snd hrun
      have hrequest := request_eq hopen hrun deliver p
      have hlines := htrail.log
      have htold : Assembly.faultTrace w.underTrace = trace := htrace.symm
      rw [htold] at hlines
      obtain ⟨m, hworld, -⟩ := a.answer_closing w₁ trace full.truth deliver p assembled
      have hlog : (a.answer w₁ trace full.truth deliver p assembled).1.log =
          w₁.log ++ closingLines trace full.truth assembled := congrArg World.log hworld
      rw [hlines, List.append_assoc] at hlog
      rw [← htrace] at hrequest
      refine ⟨trace, _, _, _, _, congrArg some htrace.symm, hrequest, hlog, ?_, ?_⟩
      · intro level hlevel
        rw [messagesAt_told hlevel, hassembled]
      · change (a.answer w₁ trace full.truth deliver p assembled).1.calls = w₁.calls
        rw [hworld]

/-- An interruption of the assembly goes through a request, and leaves the promise as it is. -/
theorem request_of_interrupted (hopen : a.closed = false) {w : World} {full : Value} {f : Fault}
    (hf : a.assembled w full = .error f) (hcatch : f.isCatchable = false)
    (deliver : Report → α) (p : Promise α) :
    (a.request w deliver full p).2 = (p, .error f) := by
  have hrun : Assembly.run a.settings a.sink w.underTrace a.registry (.bool full.truth) =
      (_, .error f) := Prod.ext rfl hf
  rw [request_eq hopen hrun]
  simp [answer, hcatch]

/-- What a pending promise holds after a request that is counted and not interrupted. -/
theorem future_of_request (hopen : a.closed = false) {w : World} {full : Value}
    (hcatch : ∀ f, a.assembled w full = .error f → f.isCatchable = true)
    (hlimit : a.records = true → w.metrics.limit ≤ Metrics.greatestLimit)
    (deliver : Report → α) {p : Promise α} (hclaimed : p.claimed = false)
    (hpending : p.future = .pending) :
    (a.request w deliver full p).2.1.future = match a.assembled w full with
      | .ok r => .value (deliver ⟨r.text⟩)
      | .error f => .error f := by
  obtain ⟨w', hrequest⟩ := request_of_not_interrupted hopen hcatch hlimit deliver p
  rw [hrequest]
  cases a.assembled w full with
  | ok r =>
      rw [resolution, Promise.setValue, Promise.resolve_of_pending hclaimed hpending]
      rfl
  | error f =>
      rw [resolution, Promise.setError, Promise.resolve_of_pending hclaimed hpending]
      rfl

/-- This is what the log tells of a request.  If its assembly gives a report, there is one line of
information and none of an error.  The line tells the number of entries, the number of those that
were lost to the marker, the number of characters of the text, and the truth value of the wish for
details.  Every entry is what a provider answered to a call that tells it this truth value, if it
takes it, and these calls are the ones noted.  The text is the one that the promise takes, if it was
not resolved before and the request can be counted.  A text has no more characters than bytes, and
as many exactly if it is all ASCII.  If the assembly ends with a fault, there is no line of
information, but one of an error, with the code of the very fault that the promise takes; an
interruption goes on as it is, and neither the log nor the promise hears of it. -/
theorem log_lines_tell_the_end (a : Aggregator) (hopen : a.closed = false) (w : World)
    (deliver : Report → α) (full : Value) (p : Promise α) :
    ∃ trace added w' p' outcome, w.requestTrace = some trace ∧
      a.request w deliver full p = (w', p', outcome) ∧ w'.log = w.log ++ added ∧
      let delivered := a.registry.deliveries w.underTrace (.bool full.truth)
      let takes := p.claimed = false ∧ p.future = .pending ∧
        (a.records = true → w.metrics.limit ≤ Metrics.greatestLimit)
      (∀ r, a.assembled w full = .ok r →
        messagesAt infoLevel added = [some (Text.points "memory_stats trace_id=" ++ trace ++
          Text.points (" providers=" ++ toString delivered.length ++ " faults=" ++
            toString (delivered.countP (·.2.fails a.settings)) ++ " bytes=" ++
            toString r.text.length ++ " full=" ++ truthWord full.truth))] ∧
        messagesAt errorLevel added = [] ∧
        (∀ before e after, a.registry.entries = before ++ e :: after →
          delivered[before.length]? = some (e, e.provider.behave {
            number := callCount (w.calls ++ before.map fun earlier => ⟨earlier.provider.identity,
              if earlier.provider.acceptsFull then some (.bool full.truth) else none⟩)
                e.provider.identity + 1
            full := if e.provider.acceptsFull then some (.bool full.truth) else none
            trace := some trace })) ∧
        w'.calls = w.calls ++ a.registry.entries.map (fun e => ⟨e.provider.identity,
          if e.provider.acceptsFull then some (.bool full.truth) else none⟩) ∧
        r.text = reportText (segments a.settings delivered) ∧
        (takes → p'.future = .value (deliver ⟨r.text⟩)) ∧
        ∀ cs, Text.characters? r.text = some cs →
          r.text.length ≤ (String.ofList cs).toUTF8.toList.length ∧
          (r.text.length = (String.ofList cs).toUTF8.toList.length ↔ ∀ c ∈ cs, c.toNat < 128)) ∧
      ∀ f, a.assembled w full = .error f →
        messagesAt infoLevel added = [] ∧
        if f.isCatchable then
          (∃ code, f.logCode = .text code ∧ messagesAt errorLevel added =
            [some (Text.points "memory_stats failed trace_id=" ++ trace ++
              Text.points (" code=" ++ code))]) ∧ (takes → p'.future = .error f)
        else messagesAt errorLevel added = [] ∧ p' = p ∧ outcome = .error f := by
  obtain ⟨trace, added, w', p', outcome, htrace, hrequest, hlog, hmessages, hcalls⟩ :=
    request_log hopen w deliver full p
  have hinfo := hmessages infoLevel (by decide)
  have herror := hmessages errorLevel (by decide)
  refine ⟨trace, added, w', p', outcome, htrace, hrequest, hlog, ?_⟩
  intro delivered takes
  constructor
  · intro r hr
    have hrun : Assembly.run a.settings a.sink w.underTrace a.registry (.bool full.truth) =
        (_, .ok r) := Prod.ext rfl hr
    obtain ⟨hreport, hfollows⟩ := Assembly.run_eq_ok hrun
    have htext : r.text = reportText (segments a.settings delivered) := congrArg (·.text) hreport
    have hentries : r.entries = delivered.length :=
      (congrArg (·.entries) hreport).trans (length_deliveries _ _ _ _).symm
    have hfaults : r.faults.length = delivered.countP (·.2.fails a.settings) :=
      (congrArg (·.faults.length) hreport).trans (Assembly.length_lostNames _ _)
    rw [hr] at hinfo herror
    refine ⟨?_, herror, ?_, hcalls.trans hfollows.calls, htext, ?_, ?_⟩
    · rw [hinfo, ← hentries, ← hfaults]
      rfl
    · intro before e after hsplit
      have hbound : w.underTrace.traces.bound = some trace := htrace
      have hdelivered : delivered =
          deliveries (.bool full.truth) (some trace) w.calls (before ++ e :: after) := by
        rw [← hsplit, ← hbound]
        rfl
      rw [hdelivered]
      exact getElem?_deliveries w.calls before e after
    · rintro ⟨hclaimed, hpending, hlimit⟩
      have hcatch : ∀ f, a.assembled w full = .error f → f.isCatchable = true := by
        intro f hf
        rw [hr] at hf
        cases hf
      have hfuture := future_of_request hopen hcatch hlimit deliver hclaimed hpending
      rw [hrequest, hr] at hfuture
      exact hfuture
    · intro cs hcs
      have hlength : r.text.length = cs.length := by
        rw [Text.eq_map_of_characters? hcs, List.length_map]
      rw [hlength]
      exact Text.length_toUTF8 cs
  · intro f hf
    rw [hf] at hinfo herror
    cases hcatch : f.isCatchable with
    | true =>
        rw [closingLines, if_pos hcatch] at hinfo herror
        refine ⟨hinfo, ?_⟩
        rw [if_pos rfl]
        have hends : f.EndsAssembly := Assembly.endsAssembly_of_run (Prod.ext rfl hf)
        obtain ⟨code, hcode⟩ := hends.logCode_eq hcatch
        refine ⟨⟨code, hcode, ?_⟩, ?_⟩
        · rw [herror]
          simp [messagesAt, LogEvent.level, LogEvent.message, hcode, Except.map, Except.toOption,
            Text.points]
        rintro ⟨hclaimed, hpending, hlimit⟩
        have hordinary : ∀ f', a.assembled w full = .error f' → f'.isCatchable = true := by
          intro f' hf'
          cases hf.symm.trans hf'
          exact hcatch
        have hfuture := future_of_request hopen hordinary hlimit deliver hclaimed hpending
        rw [hrequest, hf] at hfuture
        exact hfuture
    | false =>
        rw [closingLines, if_neg (by simp [hcatch])] at hinfo herror
        have hleft := request_of_interrupted hopen hf hcatch deliver p
        rw [hrequest] at hleft
        refine ⟨hinfo, ?_⟩
        rw [if_neg (by simp)]
        exact ⟨herror, congrArg Prod.fst hleft, congrArg Prod.snd hleft⟩

/-- An aggregator over a provider that writes a letter beyond ASCII and one that raises. -/
def accentedSample : Aggregator where
  settings := {}
  registry :=
    { entries := [
        ⟨⟨Text.points "a", by decide, by decide⟩,
          scripted 0 .takesFull [.emit (.text "\"k\":\"é\"")]⟩,
        ⟨⟨Text.points "bad", by decide, by decide⟩,
          scripted 1 .plain [.raise (.raised "ValueError" []) none]⟩]
      names_nodup := by decide
      callable := by
        intro e he
        simp only [List.mem_cons, List.not_mem_nil, or_false] at he
        rcases he with rfl | rfl <;> rfl }
  sink := .none
  host := none
  measured := false

def accentedText : String :=
  "\x7b\"memory_stats\":\x7b\"a\":\x7b\"k\":\"é\"\x7d," ++
    "\"bad\":\x7b\"error\":\"provider_fault\"\x7d\x7d\x7d"

theorem log_lines_tell_the_end_sample :
    accentedSample.closed = false ∧
      ∃ trace w' p' outcome r, accentedSample.request .fresh id (.bool true) (.new none none) =
          (w', p', outcome) ∧
        accentedSample.assembled .fresh (.bool true) = .ok r ∧
        messagesAt infoLevel w'.log = [some (Text.points "memory_stats trace_id=" ++ trace ++
          Text.points (" providers=" ++ toString 2 ++ " faults=" ++ toString 1 ++ " bytes=" ++
            toString r.text.length ++ " full=" ++ truthWord true))] ∧
        messagesAt errorLevel w'.log = [] ∧
        w'.calls = [⟨0, some (.bool true)⟩, ⟨1, none⟩] ∧ p'.future = .value ⟨r.text⟩ := by
  refine ⟨rfl, ?_⟩
  obtain ⟨trace, added, w', p', outcome, -, hrequest, hlog, hok, -⟩ :=
    log_lines_tell_the_end accentedSample rfl .fresh id (.bool true) (.new none none)
  cases hassembled : accentedSample.assembled .fresh (.bool true) with
  | error f =>
      have hends : (accentedSample.assembled .fresh (.bool true)).isOk = true := by decide +kernel
      rw [hassembled] at hends
      cases hends
  | ok r =>
      obtain ⟨hinfo, herror, -, hcalls, -, htakes, -⟩ := hok r hassembled
      have hsize : (accentedSample.registry.deliveries World.fresh.underTrace
          (.bool (Value.bool true).truth)).length = 2 := rfl
      have hlost : (accentedSample.registry.deliveries World.fresh.underTrace
          (.bool (Value.bool true).truth)).countP (·.2.fails accentedSample.settings) = 1 := by
        decide +kernel
      rw [hsize, hlost] at hinfo
      have hadded : w'.log = added := hlog
      rw [← hadded] at hinfo herror
      exact ⟨trace, w', p', outcome, r, hrequest, rfl, hinfo, herror, hcalls,
        htakes ⟨rfl, rfl, fun hrecords => by cases hrecords⟩⟩

/-- The log tells the number of characters where it says bytes. -/
theorem characters_logged_as_bytes :
    (accentedSample.assembled .fresh (.bool false)).toOption.map (·.text) =
        some (Text.points accentedText) ∧
      accentedText.toUTF8.toList.length = 66 ∧
      messagesAt infoLevel (accentedSample.request .fresh id (.bool false) (.new none none)).1.log =
        [some (Text.points "memory_stats trace_id=" ++ freshTrace 0 ++
          Text.points " providers=2 faults=1 bytes=65 full=False")] := by
  refine ⟨by decide +kernel, ?_, by decide +kernel⟩
  rw [Text.toList_toUTF8]
  decide +kernel

end Aggregator

end UsageReport
