/-
Rows up to their stamps.  The time of a row is a text, and so is its trace, unless it holds lone
halves, which are not written.  Apart from that, whether a call has a row, and all other parts of
it, do not depend on the stamps.  So calls that differ in their stamps only leave the same rows up
to these, in any two logs that can both be added to.
-/
import UsageReport.Proofs.ErrorLog.Calls
import UsageReport.Trace

namespace UsageReport.ErrorLog

open Json (Style)

/-- The trace holds no lone halves, so it can be written. -/
def IsText (trace : TraceId) : Prop := ∃ s, Value.ofPoints trace = .text s

/-- The parts of a row behind a time and a trace. -/
def stamped (time : String) (trace : TraceId) (fields : Fields) : Value :=
  .ofFields (("ts", .text time) :: ("trace_id", .ofPoints trace) :: fields)

/-- Both rows are the JSON forms of the same parts, up to the time and the trace. -/
def SameButStamps (row row' : String) : Prop :=
  ∃ fields time trace time' trace', Style.line.text (stamped time trace fields) = .ok row ∧
    Style.line.text (stamped time' trace' fields) = .ok row'

theorem isText_of_text_stamped {time : String} {trace : TraceId} {fields : Fields} {row : String}
    (h : Style.line.text (stamped time trace fields) = .ok row) : IsText trace := by
  obtain ⟨cs, hwrite, -⟩ := exists_of_map_eq_ok h
  obtain ⟨parts, hparts, -⟩ := exists_of_bind_eq_ok hwrite
  obtain ⟨text, htext⟩ := Style.exists_write_of_mem hparts
    (p := (.text "trace_id", .ofPoints trace)) (by simp)
  exact Style.exists_text_of_write rfl htext

/-- Parts that can be written behind some stamps can be written behind any that can be written. -/
theorem exists_text_stamped {time : String} {trace : TraceId} {fields : Fields} {row : String}
    (h : Style.line.text (stamped time trace fields) = .ok row) (time' : String)
    {trace' : TraceId} (htrace' : IsText trace') :
    ∃ row', Style.line.text (stamped time' trace' fields) = .ok row' := by
  obtain ⟨s, hs⟩ := isText_of_text_stamped h
  obtain ⟨s', hs'⟩ := htrace'
  simp only [Style.text, stamped, hs, hs', Value.ofFields, List.map_cons, Style.write,
    Style.writePairs, Style.name] at h ⊢
  cases hparts : Style.writePairs Style.line 1
      (fields.map fun p => (Value.text p.1, p.2)) with
  | error failure =>
      simp only [hparts] at h
      cases h
  | ok parts => exact ⟨_, rfl⟩

/-- A line is the JSON form of a row whose other parts do not depend on its stamps. -/
theorem line_eq_text {tracebacks : Bool} {time row : String} {e : ReportError}
    {trace subsystem : Value} {internal : Option Fault}
    (h : line tracebacks time e trace subsystem internal = .ok row) :
    ∃ severity safeContext traceback, ∀ time' trace',
      line tracebacks time' e trace' subsystem internal = Style.line.text
        (ErrorLog.row time' severity e trace' subsystem safeContext traceback) := by
  obtain ⟨severity, hseverity, h⟩ := exists_of_bind_eq_ok h
  obtain ⟨safeContext, hsafe, h⟩ := exists_of_bind_eq_ok h
  cases tracebacks with
  | false =>
      refine ⟨severity, safeContext, none, fun time' trace' => ?_⟩
      rw [line, hseverity, hsafe]
      rfl
  | true =>
      obtain ⟨traceback, htraceback, -⟩ := exists_of_bind_eq_ok h
      refine ⟨severity, safeContext, traceback, fun time' trace' => ?_⟩
      rw [line, hseverity, hsafe]
      simp only [if_true, htraceback]
      rfl

/-- Whether there is a line, and all of it but its stamps, does not depend on these, as long as the
trace can be written. -/
theorem line_stamped {tracebacks : Bool} {time row : String} {trace : TraceId} {e : ReportError}
    {subsystem : Value} {internal : Option Fault}
    (h : line tracebacks time e (.ofPoints trace) subsystem internal = .ok row)
    (time' : String) {trace' : TraceId} (htrace' : IsText trace → IsText trace') :
    ∃ row', line tracebacks time' e (.ofPoints trace') subsystem internal = .ok row' ∧
      SameButStamps row row' := by
  obtain ⟨severity, safeContext, traceback, hline⟩ := line_eq_text h
  rw [hline] at h
  obtain ⟨row', hrow'⟩ := exists_text_stamped h time' (htrace' (isText_of_text_stamped h))
  exact ⟨row', (hline time' (.ofPoints trace')).trans hrow', _, time, trace, time', trace', h,
    hrow'⟩

namespace Call

/-- The call with other stamps. -/
def restamp (call : Call) (time : String) (trace : TraceId) : Call :=
  { call with time, trace := .ofPoints trace }

variable {log log' : ErrorLog} {call : Call} {trace trace' : TraceId}

/-- With other stamps, a call has the same row up to these. -/
theorem entry_restamp (htracebacks : log'.tracebacks = log.tracebacks)
    (htrace : call.trace = .ofPoints trace) {row : String} {key : SeriesKey}
    (h : call.entry log = .ok (row, key)) (time' : String)
    (htrace' : IsText trace → IsText trace') :
    ∃ row', (call.restamp time' trace').entry log' = .ok (row', key) ∧ SameButStamps row row' := by
  obtain ⟨e, cause, htold, hkey, hline⟩ := Call.entry_eq_ok h
  rw [htrace] at hline
  obtain ⟨row', hline', hsame⟩ := line_stamped hline time' htrace'
  refine ⟨row', ?_, hsame⟩
  have htold' : (call.restamp time' trace').told = .ok (.known e cause) := htold
  have hinternal : (call.restamp time' trace').internal = call.internal := rfl
  unfold entry
  rw [htold', htracebacks, hinternal, hkey]
  simp only [restamp, hline']

end Call

/-- The calls differ in their stamps only, and both traces can be written, or neither. -/
def Restamped (call call' : Call) : Prop :=
  ∃ trace time' trace', call.trace = .ofPoints trace ∧ call' = call.restamp time' trace' ∧
    (IsText trace ↔ IsText trace')

theorem Restamped.symm {call call' : Call} (h : Restamped call call') : Restamped call' call := by
  obtain ⟨trace, time', trace', htrace, rfl, htexts⟩ := h
  refine ⟨trace', call.time, trace, rfl, ?_, htexts.symm⟩
  obtain ⟨time, fault, _, subsystem, way⟩ := call
  cases htrace
  rfl

section Logs

variable {log log' : ErrorLog} {s s' : Effects} {calls calls' : List Call}

/-- A call that succeeds adds its row before those of the calls behind it. -/
theorem Adds.perform {t t' : Effects} {call : Call} {entry : String × SeriesKey}
    {rows : List (String × SeriesKey)} (h : log.Adds t t' rows)
    (hperform : log.perform s call = (t, .ok ())) (hentry : call.entry log = .ok entry) :
    log.Adds s t' (entry :: rows) := by
  obtain ⟨row, key, hentry', hbytes, hmetrics⟩ := perform_succeeded (congrArg Prod.snd hperform)
  rw [hentry] at hentry'
  cases hentry'
  rw [hperform] at hbytes hmetrics
  exact .cons hbytes hmetrics h

/-- Where nothing can be added to the file, all calls fail. -/
theorem performAll_of_not_opens (h : ¬s.files.Opens log.path) (calls : List Call) :
    log.performAll s calls = (s, []) := by
  induction calls with
  | nil => rfl
  | cons call rest ih =>
      have hperform : ∃ f, log.perform s call = (s, .error f) := by
        rw [perform_eq]
        cases hentry : call.entry log with
        | error f => exact ⟨f, rfl⟩
        | ok entry =>
            simp only [keep]
            split
            · next f _ => exact ⟨f, rfl⟩
            · next files happend => exact absurd (FileTree.opens_of_appendName happend) h
      obtain ⟨f, hperform⟩ := hperform
      rw [performAll, hperform]
      exact ih

/-- Calls change nothing about whether the file can be added to. -/
theorem opens_performAll (log : ErrorLog) (s : Effects) (calls : List Call) :
    (log.performAll s calls).1.files.Opens log.path ↔ s.files.Opens log.path := by
  by_cases h : s.files.Opens log.path
  · refine iff_of_true ?_ h
    induction calls generalizing s with
    | nil => exact h
    | cons call rest ih =>
        rw [performAll_cons]
        apply ih
        cases hentry : call.entry log with
        | error f =>
            rw [perform_eq, hentry]
            exact h
        | ok entry =>
            obtain ⟨s', hperform, hopens⟩ := perform_of_entry h hentry
            rw [hperform]
            exact hopens
  · rw [performAll_of_not_opens h]

/-- Calls that differ in their stamps only leave the same rows up to these, in logs that show the
same and whose files can both be added to, or neither. -/
theorem performAll_restamped (htracebacks : log'.tracebacks = log.tracebacks)
    (hopens : s.files.Opens log.path ↔ s'.files.Opens log'.path)
    (hcalls : List.Forall₂ Restamped calls calls') :
    ∃ rows rows', log.Adds s (log.performAll s calls).1 rows ∧
      log'.Adds s' (log'.performAll s' calls').1 rows' ∧
      List.Forall₂ (fun row row' => SameButStamps row.1 row'.1) rows rows' := by
  by_cases h : s.files.Opens log.path
  · have h' := hopens.mp h
    clear hopens
    induction hcalls generalizing s s' with
    | nil => exact ⟨[], [], .nil log s, .nil log' s', .nil⟩
    | @cons call call' rest rest' hcall _ ih =>
        rw [performAll_cons, performAll_cons]
        cases hentry : call.entry log with
        | error f =>
            -- The other call has no row either: it would be one for this call.
            have hentry' : ∃ f', call'.entry log' = .error f' := by
              cases hother : call'.entry log' with
              | error f' => exact ⟨f', rfl⟩
              | ok entry =>
                  obtain ⟨trace', time, trace, htrace', rfl, htexts⟩ := hcall.symm
                  obtain ⟨row, hrow, -⟩ :=
                    Call.entry_restamp htracebacks.symm htrace' hother time htexts.mp
                  rw [hentry] at hrow
                  cases hrow
            obtain ⟨f', hentry'⟩ := hentry'
            rw [perform_eq, perform_eq, hentry, hentry']
            exact ih h h'
        | ok entry =>
            obtain ⟨trace, time', trace', htrace, rfl, htexts⟩ := hcall
            obtain ⟨row', hentry', hsame⟩ :=
              Call.entry_restamp htracebacks htrace hentry time' htexts.mp
            obtain ⟨t, hperform, ht⟩ := perform_of_entry h hentry
            obtain ⟨t', hperform', ht'⟩ := perform_of_entry h' hentry'
            obtain ⟨rows, rows', hadds, hadds', hrows⟩ := ih ht ht'
            rw [hperform, hperform']
            refine ⟨entry :: rows, (row', entry.2) :: rows', ?_, ?_, .cons hsame hrows⟩
            · exact hadds.perform hperform hentry
            · exact hadds'.perform hperform' hentry'
  · rw [performAll_of_not_opens h, performAll_of_not_opens (fun h' => h (hopens.mpr h'))]
    exact ⟨[], [], .nil log s, .nil log' s', .nil⟩

end Logs

end UsageReport.ErrorLog
