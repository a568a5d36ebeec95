/-
The error log over any sequence of calls.  A call adds one whole line and counts it, or it
changes nothing: the row is encoded before the file is touched, and the file takes the line as a
whole.  So the file is its old content and one line for every call that succeeded, in order, and
each line is read back on its own as what the call told.
-/
import UsageReport.ErrorLog
import UsageReport.Proofs.Files.Append
import UsageReport.Proofs.Json.OneLine
import UsageReport.Proofs.Metrics.Counter

namespace UsageReport.ErrorLog

open Text (newlineByte)

/-- How a fault comes to the log. -/
inductive Way
  /-- As it was caught, with a context. -/
  | report (context : Pairs)
  /-- As an error, with the fault that led to it. -/
  | write (internal : Option Fault)

/-- One use of an error log. -/
structure Call where
  time : String
  fault : Fault
  trace : Value
  subsystem : Value
  way : Way

namespace Call

/-- The fault that a call tells of. -/
def told (call : Call) : Outcome Fault :=
  match call.way with
  | .report context => normalize call.fault call.subsystem context
  | .write _ => .ok call.fault

/-- The fault that a call shows the traceback of. -/
def internal (call : Call) : Option Fault :=
  match call.way with
  | .report _ => some call.fault
  | .write internal => internal

/-- The row of a call and the series that counts it, if the call has a row. -/
def entry (log : ErrorLog) (call : Call) : Outcome (String × SeriesKey) :=
  match call.told with
  | .error f => .error f
  | .ok (.known e _) =>
    match line log.tracebacks call.time e call.trace call.subsystem call.internal with
    | .error failure => fail failure
    | .ok row => .ok (row, series call.subsystem e.code)
  | .ok f => fail (missingField f)

end Call

/-- Makes a call. -/
def perform (log : ErrorLog) (s : Effects) (call : Call) : Effects × Outcome Unit :=
  match call.way with
  | .report context =>
    let (s, answer) :=
      log.report call.time s call.fault call.trace call.subsystem context
    (s, answer.map fun _ => ())
  | .write internal => log.write call.time s call.fault call.trace call.subsystem internal

/-- Makes calls one after the other; those that succeed are listed. -/
def performAll (log : ErrorLog) : Effects → List Call → Effects × List Call
  | s, [] => (s, [])
  | s, call :: rest =>
    match log.perform s call with
    | (s, .ok ()) => ((log.performAll s rest).1, call :: (log.performAll s rest).2)
    | (s, .error _) => log.performAll s rest

theorem performAll_cons (log : ErrorLog) (s : Effects) (call : Call) (rest : List Call) :
    (log.performAll s (call :: rest)).1 = (log.performAll (log.perform s call).1 rest).1 := by
  rw [performAll]
  split <;> next hperform => rw [hperform]

/-! ### One call -/

/-- What a fault that is none of the library's own errors turns into. -/
theorem normalize_of_not_known {f : Fault} (hf : f.isKnown = false) (subsystem : Value)
    (context : Pairs) : normalize f subsystem context =
      let full := context.putNew (.text "exception_type") (.text f.className)
      if subsystem == .text "provider" then
        match f.message with
        | .error failure => fail failure
        | .ok text =>
          match providerClash full with
          | some failure => fail failure
          | none =>
            .ok (.known (ReportError.of .providerFault
              ((full.get? (.text "user_message")).getD (.text ErrorKind.providerFault.userMessage))
              ((.text "error", .ofPoints text) ::
                full.filter fun p => !(p.1 == .text "user_message"))) none)
      else
        .ok (.known
          { kind := .general
            code := .text "unknown_error"
            userMessage := .text "Something went wrong."
            severity := .severity .error
            recoverable := .bool true
            context := .dict full } none) := by
  cases f with
  | known e cause => cases hf
  | raised | failed | invalid | notJson => rfl

/-- Adds a row to the file as a line, and counts it in its series. -/
def keep (log : ErrorLog) (s : Effects) : Outcome (String × SeriesKey) → Effects × Outcome Unit
  | .error f => (s, .error f)
  | .ok (row, key) =>
    match s.files.appendName log.path (row ++ "\n") with
    | .error refused => (s, .error refused)
    | .ok files => (⟨files, if log.counts then s.metrics.add key 1 else s.metrics⟩, .ok ())

theorem write_eq (log : ErrorLog) (time : String) (s : Effects) (f : Fault)
    (trace subsystem : Value) (internal : Option Fault) :
    log.write time s f trace subsystem internal =
      log.keep s (Call.entry log ⟨time, f, trace, subsystem, .write internal⟩) := by
  cases f with
  | known e cause =>
      simp only [write, keep, Call.entry, Call.told, Call.internal]
      cases line log.tracebacks time e trace subsystem internal <;> rfl
  | raised | failed | invalid | notJson => rfl

/-- A call succeeds if it has a row and the file takes it. -/
theorem perform_eq (log : ErrorLog) (s : Effects) (call : Call) :
    log.perform s call = log.keep s (call.entry log) := by
  obtain ⟨time, f, trace, subsystem, way⟩ := call
  cases way with
  | write internal => exact write_eq log time s f trace subsystem internal
  | report context =>
      cases hnormal : normalize f subsystem context with
      | error mishap => simp [perform, report, keep, Call.entry, Call.told, hnormal, Except.map]
      | ok e =>
          -- A report is a call that writes what the fault turns into.
          have hperform : log.perform s ⟨time, f, trace, subsystem, .report context⟩ =
              log.write time s e trace subsystem (some f) := by
            simp only [perform, report, hnormal]
            generalize log.write time s e trace subsystem (some f) = written
            obtain ⟨s', _ | _⟩ := written <;> rfl
          have hentry : Call.entry log ⟨time, f, trace, subsystem, .report context⟩ =
              Call.entry log ⟨time, e, trace, subsystem, .write (some f)⟩ := by
            simp only [Call.entry, Call.told, Call.internal, hnormal]
          rw [hperform, write_eq, hentry]

/-- A call that fails changes nothing. -/
theorem perform_failed {log : ErrorLog} {s : Effects} {call : Call} {f : Fault}
    (h : (log.perform s call).2 = .error f) : (log.perform s call).1 = s := by
  rw [perform_eq] at h ⊢
  cases hentry : call.entry log with
  | error mishap => rfl
  | ok entry =>
      simp only [hentry, keep] at h ⊢
      split at h
      · rfl
      · cases h

/-- A call that succeeds adds its row as a line, and counts it. -/
theorem perform_succeeded {log : ErrorLog} {s : Effects} {call : Call}
    (h : (log.perform s call).2 = .ok ()) :
    ∃ row key, call.entry log = .ok (row, key) ∧
      (log.perform s call).1.files.bytesAt log.path =
        s.files.bytesAt log.path ++ (row ++ "\n").toUTF8.toList ∧
      (log.perform s call).1.metrics =
        if log.counts then s.metrics.add key 1 else s.metrics := by
  rw [perform_eq] at h ⊢
  cases hentry : call.entry log with
  | error mishap =>
      rw [hentry] at h
      cases h
  | ok entry =>
      simp only [hentry, keep] at h ⊢
      split at h
      · cases h
      · next files happend =>
        obtain ⟨files', happend', -, hbytes⟩ :=
          FileTree.appendName_of_opens (FileTree.opens_of_appendName happend) (entry.1 ++ "\n")
        rw [happend] at happend'
        cases happend'
        exact ⟨entry.1, entry.2, rfl, hbytes, rfl⟩

/-- Where the file can be added to, a call that has a row succeeds, and the file can be added to
again. -/
theorem perform_of_entry {log : ErrorLog} {s : Effects} {call : Call} {row : String}
    {key : SeriesKey} (hopens : s.files.Opens log.path) (h : call.entry log = .ok (row, key)) :
    ∃ s', log.perform s call = (s', .ok ()) ∧ s'.files.Opens log.path := by
  obtain ⟨files, happend, hopens', -⟩ := FileTree.appendName_of_opens hopens (row ++ "\n")
  rw [perform_eq, h]
  simp only [keep, happend]
  exact ⟨_, rfl, hopens'⟩

/-! ### Rows -/

/-- The row is read back as what the call tells, and the key is that of its series.  JSON does
not tell tuples from lists or keys from their texts; floating-point numbers are taken to come
back from their texts. -/
def Call.ShownBy (call : Call) (row : String) (key : SeriesKey) : Prop :=
  ∃ e cause severity safeContext, call.told = .ok (.known e cause) ∧
    e.severity.word = .ok severity ∧ e.safeContext = .ok safeContext ∧
    key = series call.subsystem e.code ∧
    ((∀ x ∈ call.trace.floats ++ call.subsystem.floats ++ e.code.floats ++ e.userMessage.floats ++
        safeContext.floats, Json.FloatSurvives x) →
      ∃ doc internal, Json.read (Text.points row) = .ok doc ∧
        doc.toValue = .ofFields ([("ts", .text call.time), ("trace_id", call.trace.coerced),
          ("subsystem", call.subsystem.coerced), ("error_code", e.code.coerced),
          ("severity", .text severity), ("recoverable", .bool e.recoverable.truth),
          ("user_message", e.userMessage.coerced), ("safe_context", safeContext.coerced)] ++
          internal) ∧
        (internal = [] ∨
          ∃ s, internal = [("internal_context", .ofFields [("traceback", .text s)])]))

theorem line_eq_ok {tracebacks : Bool} {time row : String} {e : ReportError}
    {trace subsystem : Value} {internal : Option Fault}
    (h : line tracebacks time e trace subsystem internal = .ok row) :
    ∃ severity safeContext traceback, e.severity.word = .ok severity ∧
      e.safeContext = .ok safeContext ∧
      Json.Style.line.text (ErrorLog.row time severity e trace subsystem safeContext traceback) =
        .ok row := by
  obtain ⟨severity, hseverity, h⟩ := exists_of_bind_eq_ok h
  obtain ⟨safeContext, hsafe, h⟩ := exists_of_bind_eq_ok h
  cases tracebacks with
  | false => exact ⟨severity, safeContext, none, hseverity, hsafe, h⟩
  | true =>
      obtain ⟨traceback, -, h⟩ := exists_of_bind_eq_ok h
      exact ⟨severity, safeContext, traceback, hseverity, hsafe, h⟩

/-- A traceback that was written holds no lone halves. -/
theorem exists_text_of_row {time severity line : String} {e : ReportError}
    {trace subsystem safeContext : Value} {traceback : Option (List Text.CodePoint)}
    (h : Json.Style.line.text (row time severity e trace subsystem safeContext traceback) =
      .ok line) {points : List Text.CodePoint} (hpoints : traceback = some points) :
    ∃ s, Value.ofPoints points = .text s := by
  subst hpoints
  obtain ⟨cs, hwrite, -⟩ := exists_of_map_eq_ok h
  obtain ⟨parts, hparts, -⟩ := exists_of_bind_eq_ok hwrite
  obtain ⟨inner, hinner⟩ := Json.Style.exists_write_of_mem hparts
    (p := (.text "internal_context", .ofFields [("traceback", .ofPoints points)])) (by simp)
  obtain ⟨innerParts, hinnerParts, -⟩ := exists_of_bind_eq_ok hinner
  obtain ⟨text, htext⟩ := Json.Style.exists_write_of_mem hinnerParts
    (p := (.text "traceback", .ofPoints points)) (by simp)
  exact Json.Style.exists_text_of_write rfl htext

/-- The row of an error as it comes back, if its traceback holds no lone halves. -/
theorem coerced_row (time severity : String) (e : ReportError)
    (trace subsystem safeContext : Value) {traceback : Option (List Text.CodePoint)}
    (htext : ∀ points, traceback = some points → ∃ s, Value.ofPoints points = .text s) :
    ∃ internal, (row time severity e trace subsystem safeContext traceback).coerced =
        .ofFields ([("ts", .text time), ("trace_id", trace.coerced),
          ("subsystem", subsystem.coerced), ("error_code", e.code.coerced),
          ("severity", .text severity), ("recoverable", .bool e.recoverable.truth),
          ("user_message", e.userMessage.coerced), ("safe_context", safeContext.coerced)] ++
          internal) ∧
        (internal = [] ∨
          ∃ s, internal = [("internal_context", .ofFields [("traceback", .text s)])]) := by
  cases traceback with
  | none => exact ⟨[], Value.coerced_ofFields (by simp), .inl rfl⟩
  | some points =>
      obtain ⟨s, hs⟩ := htext points rfl
      refine ⟨[("internal_context", .ofFields [("traceback", .text s)])],
        (Value.coerced_ofFields (by simp)).trans ?_, .inr ⟨s, rfl⟩⟩
      simp [hs, Value.coerced_ofFields, Value.coerced]

theorem floats_row (time severity : String) (e : ReportError)
    (trace subsystem safeContext : Value) (traceback : Option (List Text.CodePoint)) :
    (row time severity e trace subsystem safeContext traceback).floats =
      trace.floats ++ subsystem.floats ++ e.code.floats ++ e.userMessage.floats ++
        safeContext.floats := by
  cases traceback <;> simp [row, Value.floats_ofFields, Value.floats, Value.floats_ofPoints]

theorem Call.entry_eq_ok {log : ErrorLog} {call : Call} {row : String} {key : SeriesKey}
    (h : call.entry log = .ok (row, key)) :
    ∃ e cause, call.told = .ok (.known e cause) ∧ key = series call.subsystem e.code ∧
      line log.tracebacks call.time e call.trace call.subsystem call.internal = .ok row := by
  unfold Call.entry at h
  split at h
  · cases h
  · next e cause htold =>
    split at h
    · cases h
    · next row' hline =>
      cases h
      exact ⟨e, cause, htold, rfl, hline⟩
  · cases h

/-- The row of a call is one line, and shows what the call tells. -/
theorem Call.shownBy_of_entry {log : ErrorLog} {call : Call} {row : String} {key : SeriesKey}
    (h : call.entry log = .ok (row, key)) : '\n' ∉ row.toList ∧ call.ShownBy row key := by
  obtain ⟨e, cause, htold, hkey, hline⟩ := Call.entry_eq_ok h
  obtain ⟨severity, safeContext, traceback, hseverity, hsafe, htext⟩ := line_eq_ok hline
  refine ⟨Json.newline_not_mem_text Json.Style.line_oneLine htext,
    e, cause, severity, safeContext, htold, hseverity, hsafe, hkey, fun hfloats => ?_⟩
  obtain ⟨doc, hread, hvalue⟩ :=
    Json.read_text Json.Style.line_spaced htext (by rwa [floats_row])
  obtain ⟨internal, hcoerced, hinternal⟩ :=
    coerced_row call.time severity e call.trace call.subsystem safeContext
      fun points hpoints => exists_text_of_row htext hpoints
  exact ⟨doc, internal, hread, hvalue.trans hcoerced, hinternal⟩

/-! ### Lines -/

/-- The bytes of rows, each on a line. -/
def lineBytes (rows : List (String × SeriesKey)) : List UInt8 :=
  rows.flatMap fun row => (row.1 ++ "\n").toUTF8.toList

theorem bytes_line (row : String) :
    (row ++ "\n").toUTF8.toList = row.toUTF8.toList ++ [newlineByte] := by
  rw [Text.toList_toUTF8_append, Text.toList_toUTF8 "\n"]
  rfl

/-- Lines can be told apart at the line ends. -/
theorem splitOn_lineBytes {rows : List (String × SeriesKey)}
    (h : ∀ row ∈ rows, '\n' ∉ row.1.toList) :
    (lineBytes rows).splitOn newlineByte = rows.map (·.1.toUTF8.toList) ++ [[]] := by
  induction rows with
  | nil => rfl
  | cons row rest ih =>
      rw [List.forall_mem_cons] at h
      have hfree : newlineByte ∉ row.1.toUTF8.toList := fun hmem =>
        h.1 (Text.newline_mem_of_newlineByte_mem hmem)
      rw [lineBytes, List.flatMap_cons, bytes_line, List.append_assoc, List.singleton_append,
        List.splitOn_append_cons_self_of_not_mem hfree, List.map_cons, List.cons_append]
      exact congrArg _ (ih h.2)

/-- Lines after an old content of whole lines. -/
theorem splitOn_append_lineBytes {old : List UInt8} {rows : List (String × SeriesKey)}
    (hold : old = [] ∨ ∃ before, old = before ++ [newlineByte])
    (h : ∀ row ∈ rows, '\n' ∉ row.1.toList) :
    (old ++ lineBytes rows).splitOn newlineByte =
      (old.splitOn newlineByte).dropLast ++ rows.map (·.1.toUTF8.toList) ++ [[]] := by
  rcases hold with rfl | ⟨before, rfl⟩
  · rw [List.nil_append, splitOn_lineBytes h]
    rfl
  · rw [List.append_assoc, List.singleton_append, List.splitOn_append_cons_self,
      splitOn_lineBytes h, List.splitOn_append_cons_self]
    simp

/-! ### Any sequence of calls -/

/-- The second state has the rows given on top of the first, in the file and in the counters. -/
structure Adds (log : ErrorLog) (s s' : Effects) (rows : List (String × SeriesKey)) : Prop where
  bytes : s'.files.bytesAt log.path = s.files.bytesAt log.path ++ lineBytes rows
  counter : ∀ key, s'.metrics.counter key =
    s.metrics.counter key + if log.counts then (rows.countP (·.2 = key) : Int) else 0

/-- What stands in the file behind the rows of before, row by row. -/
theorem Adds.bytes_rows {log : ErrorLog} {s s' : Effects} {rows : List (String × SeriesKey)}
    (h : log.Adds s s' rows) :
    s'.files.bytesAt log.path = s.files.bytesAt log.path ++
      (rows.map (·.1)).flatMap fun row => (row ++ "\n").toUTF8.toList := by
  rw [List.flatMap_map]
  exact h.bytes

theorem Adds.nil (log : ErrorLog) (s : Effects) : log.Adds s s [] where
  bytes := (List.append_nil _).symm
  counter key := by simp

theorem Adds.cons {log : ErrorLog} {s s' s'' : Effects} {row : String} {key : SeriesKey}
    {rows : List (String × SeriesKey)}
    (hbytes : s'.files.bytesAt log.path =
      s.files.bytesAt log.path ++ (row ++ "\n").toUTF8.toList)
    (hmetrics : s'.metrics = if log.counts then s.metrics.add key 1 else s.metrics)
    (h : log.Adds s' s'' rows) : log.Adds s s'' ((row, key) :: rows) where
  bytes := by rw [h.bytes, hbytes, lineBytes, lineBytes, List.flatMap_cons, List.append_assoc]
  counter k := by
    rw [h.counter, hmetrics, List.countP_cons]
    cases log.counts with
    | false => rfl
    | true =>
        by_cases hk : k = key
        · subst hk
          simp only [if_true, Metrics.counter_add, decide_true]
          omega
        · have hkey : ¬key = k := fun h => hk h.symm
          simp [Metrics.counter_add, hk, hkey]

theorem performAll_adds (log : ErrorLog) (s : Effects) (calls : List Call) :
    ∃ rows, List.Forall₂ (fun call row => call.entry log = .ok row) (log.performAll s calls).2
        rows ∧ log.Adds s (log.performAll s calls).1 rows := by
  induction calls generalizing s with
  | nil => exact ⟨[], .nil, .nil log s⟩
  | cons call rest ih =>
      obtain ⟨rows, hrows, hadds⟩ := ih (log.perform s call).1
      cases hanswer : (log.perform s call).2 with
      | error f =>
          have hsame := perform_failed hanswer
          have hperform : log.perform s call = (s, .error f) := Prod.ext hsame hanswer
          rw [hsame] at hrows hadds
          rw [performAll, hperform]
          exact ⟨rows, hrows, hadds⟩
      | ok _ =>
          obtain ⟨row, key, hentry, hbytes, hmetrics⟩ := perform_succeeded hanswer
          have hperform : log.perform s call = ((log.perform s call).1, .ok ()) :=
            Prod.ext rfl hanswer
          rw [performAll, hperform]
          exact ⟨(row, key) :: rows, .cons hentry hrows, .cons hbytes hmetrics hadds⟩

/-- The counters of rows hold together one more for every call that succeeds. -/
theorem performAll_total (log : ErrorLog) (s : Effects) (calls : List Call) :
    (log.performAll s calls).1.metrics.total (Text.points "errors_total") =
      s.metrics.total (Text.points "errors_total") +
        if log.counts then ((log.performAll s calls).2.length : Int) else 0 := by
  induction calls generalizing s with
  | nil => simp [performAll]
  | cons call rest ih =>
      have hrest := ih (log.perform s call).1
      cases hanswer : (log.perform s call).2 with
      | error f =>
          have hsame := perform_failed hanswer
          have hperform : log.perform s call = (s, .error f) := Prod.ext hsame hanswer
          rw [performAll, hperform]
          exact ih s
      | ok _ =>
          obtain ⟨row, key, hentry, -, hmetrics⟩ := perform_succeeded hanswer
          obtain ⟨e, cause, -, rfl, -⟩ := Call.entry_eq_ok hentry
          have hperform : log.perform s call = ((log.perform s call).1, .ok ()) :=
            Prod.ext rfl hanswer
          rw [performAll, hperform]
          simp only [hrest, hmetrics, List.length_cons]
          cases log.counts with
          | false => rfl
          | true =>
              have hname : (series call.subsystem e.code).name = Text.points "errors_total" := rfl
              rw [if_pos rfl, if_pos rfl, if_pos rfl, Metrics.total_add, if_pos hname]
              omega

/-- Where the file can be added to, all calls that have rows succeed. -/
theorem performAll_told {log : ErrorLog} {s : Effects} {calls : List Call}
    (hopens : s.files.Opens log.path) (hrows : ∀ call ∈ calls, (call.entry log).isOk = true) :
    (log.performAll s calls).2 = calls := by
  induction calls generalizing s with
  | nil => rfl
  | cons call rest ih =>
      rw [List.forall_mem_cons] at hrows
      cases hentry : call.entry log with
      | error f =>
          rw [hentry] at hrows
          cases hrows.1
      | ok entry =>
          obtain ⟨s', hperform, hopens'⟩ := perform_of_entry hopens hentry
          rw [performAll, hperform]
          exact congrArg _ (ih hopens' hrows.2)

/-- Whatever is told to an error log, by whatever calls: a call that fails changes nothing, and
the others each leave one line behind the old content, in order.  No line has a line end inside,
so the rows can be told apart again, and each is read back as what its call told.  A log that
counts adds one for every row to the series of its subsystem and code, and to no other. -/
theorem calls_leave_whole_rows (log : ErrorLog) (s : Effects) (calls : List Call)
    (hold : s.files.bytesAt log.path = [] ∨
      ∃ before, s.files.bytesAt log.path = before ++ [newlineByte]) :
    (∀ t call f, (log.perform t call).2 = .error f → (log.perform t call).1 = t) ∧
      ∃ rows : List (String × SeriesKey),
        List.Forall₂ (fun call row => call.ShownBy row.1 row.2) (log.performAll s calls).2 rows ∧
        (∀ row ∈ rows, '\n' ∉ row.1.toList) ∧
        (log.performAll s calls).1.files.bytesAt log.path =
          s.files.bytesAt log.path ++ rows.flatMap (fun row => (row.1 ++ "\n").toUTF8.toList) ∧
        ((log.performAll s calls).1.files.bytesAt log.path).splitOn newlineByte =
          ((s.files.bytesAt log.path).splitOn newlineByte).dropLast ++
            rows.map (·.1.toUTF8.toList) ++ [[]] ∧
        ∀ subsystem code,
          (log.performAll s calls).1.metrics.counter (series subsystem code) =
            s.metrics.counter (series subsystem code) +
              if log.counts then (rows.countP (·.2 = series subsystem code) : Int) else 0 := by
  obtain ⟨rows, hentries, hadds⟩ := performAll_adds log s calls
  have hboth : List.Forall₂ (fun row call => '\n' ∉ row.1.toList ∧ call.ShownBy row.1 row.2)
      rows (log.performAll s calls).2 :=
    (hentries.imp fun _ _ hentry => Call.shownBy_of_entry hentry).flip
  obtain ⟨hlines, hshown⟩ := (List.forall₂_and_left _ _).mp hboth
  constructor
  · intro t call f h
    exact perform_failed h
  · refine ⟨rows, hshown.flip, hlines, hadds.bytes, ?_, ?_⟩
    · rw [hadds.bytes]
      exact splitOn_append_lineBytes hold hlines
    · intro subsystem code
      exact hadds.counter (series subsystem code)

/-- A log whose file holds a line already. -/
def sample : ErrorLog := { path := .text "errors.jsonl" }

def sampleEffects : Effects :=
  ⟨⟨[(["errors.jsonl"], .file (.text ("kept" ++ "\n")))]⟩, .new 200⟩

/-- A report of a provider that raised, one with a context that has no JSON form, and an error
with a secret and a tuple in its context. -/
def sampleCalls : List Call := [
  ⟨"10:00", .raised "KeyError" [.text "k"], .text "one", .text "provider",
    .report [(.text "provider", .text "chats")]⟩,
  ⟨"10:01", .raised "ValueError" [], .text "two", .text "registry",
    .report [(.text "left", .bytes [1])]⟩,
  ⟨"10:02", .standard .config [("token", .text "a\nb"), ("parts", .tuple [.int 1, .int 2])],
    .text "three", .text "config", .write none⟩]

theorem calls_leave_whole_rows_sample :
    sampleEffects.files.bytesAt sample.path = "kept".toUTF8.toList ++ [newlineByte] ∧
      (sample.performAll sampleEffects sampleCalls).2.map (·.time) = ["10:00", "10:02"] ∧
      ∃ rows : List (String × SeriesKey),
        List.Forall₂ (fun call row => call.ShownBy row.1 row.2)
          (sample.performAll sampleEffects sampleCalls).2 rows ∧
        ((sample.performAll sampleEffects sampleCalls).1.files.bytesAt sample.path).splitOn
            newlineByte = "kept".toUTF8.toList :: rows.map (·.1.toUTF8.toList) ++ [[]] := by
  have hold : sampleEffects.files.bytesAt sample.path = "kept".toUTF8.toList ++ [newlineByte] :=
    bytes_line "kept"
  have htold : (sample.performAll sampleEffects sampleCalls).2.map (·.time) =
      ["10:00", "10:02"] := by decide +kernel
  obtain ⟨-, rows, hshown, -, -, hsplit, -⟩ :=
    calls_leave_whole_rows sample sampleEffects sampleCalls (.inr ⟨_, hold⟩)
  have hkept : "kept".toUTF8.toList.splitOn newlineByte = ["kept".toUTF8.toList] := by
    decide +kernel
  refine ⟨hold, htold, rows, hshown, hsplit.trans ?_⟩
  rw [hold, List.splitOn_append_cons_self, hkept]
  rfl

end UsageReport.ErrorLog
