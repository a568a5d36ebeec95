/-
The error log of an assembly.  With isolation every mishap is told in the order of the entries,
each by one report under the trace and the time of the assembly; so the log gets one row for
every entry that is lost.  Faults of others become provider faults that name the provider.  The
library's own errors pass as they are, under their own codes.
-/
import UsageReport.Proofs.ErrorLog.Calls
import UsageReport.Proofs.Report.Isolation

namespace UsageReport

open ErrorLog (Effects)
open Text (CodePoint)

/-- What reports of errors change in a world. -/
def World.effects (w : World) : Effects := ⟨w.files, w.metrics⟩

/-- Nothing about a text changes when it is redacted or written and read. -/
theorem Value.ofPoints_inert (points : List CodePoint) :
    redact (.ofPoints points) = .ok (.ofPoints points) ∧
      (Value.ofPoints points).coerced = .ofPoints points ∧ (Value.ofPoints points).floats = [] := by
  refine ⟨?_, Value.coerced_ofPoints points, Value.floats_ofPoints points⟩
  unfold Value.ofPoints
  split <;> rfl

namespace Assembly

variable {settings : Settings} {full : Value}

/-- The call that tells the error log why an entry is lost. -/
def lossCall (w : World) (provider : Name) (f : Fault) : ErrorLog.Call where
  time := w.clock.stamp
  fault := f
  trace := .ofPoints (faultTrace w)
  subsystem := .text "provider"
  way := .report [(.text "provider", provider.value)]

/-- The entries that are lost, by name, with what befell them. -/
def losses (settings : Settings) (delivered : List (Entry × Delivery)) : List (Name × Fault) :=
  delivered.filterMap fun p => (p.2.mishap settings).map fun f => (p.1.name, f)

theorem losses_map_fst (settings : Settings) (delivered : List (Entry × Delivery)) :
    (losses settings delivered).map (·.1) = lostNames settings delivered := by
  induction delivered with
  | nil => rfl
  | cons p rest ih =>
      simp only [losses, lostNames] at ih ⊢
      cases hmishap : p.2.mishap settings with
      | none => simp [Delivery.fails_eq_isSome_mishap, hmishap, ih]
      | some f => simp [Delivery.fails_eq_isSome_mishap, hmishap, ih]

/-- The calls that tell of all losses. -/
def lossCalls (w : World) (lost : List (Name × Fault)) : List ErrorLog.Call :=
  lost.map fun loss => lossCall w loss.1 loss.2

/-! ### What telling does to the log -/

theorem tellFault_log (log : ErrorLog) (w : World) (provider : Name) (f : Fault) :
    (tellFault (.log log) w provider f).effects =
        (log.perform w.effects (lossCall w provider f)).1 ∧
      (tellFault (.log log) w provider f).clock = w.clock := by
  simp only [tellFault, Sink.report, ErrorLog.perform, lossCall]
  generalize hreport : log.report (w.logs _).clock.stamp _ f _ _ _ = written
  have hreport' : log.report w.clock.stamp w.effects f (.ofPoints (faultTrace w)) (.text "provider")
      [(.text "provider", provider.value)] = written := hreport
  rw [hreport']
  obtain ⟨s, _ | _⟩ := written <;> exact ⟨rfl, rfl⟩

theorem visit_clock (settings : Settings) (log : ErrorLog) (full : Value) (w : World) (e : Entry) :
    (visit settings (.log log) full w e).clock = w.clock := by
  unfold visit
  split
  · rfl
  · exact (tellFault_log log _ e.name _).2

theorem visit_effects (log : ErrorLog) (w : World) (e : Entry) :
    (visit settings (.log log) full w e).effects =
      match (e.collect w.calls full w.traces.bound).mishap settings with
      | none => w.effects
      | some f => (log.perform w.effects (lossCall w e.name f)).1 := by
  unfold visit
  cases (e.collect w.calls full w.traces.bound).mishap settings with
  | none => rfl
  | some f => exact (tellFault_log log (w.noteCall (e.record full)) e.name f).1

/-- Visits change the log as the calls do that tell of the mishaps. -/
theorem visits_effects (log : ErrorLog) (w : World) (entries : List Entry) :
    (entries.foldl (visit settings (.log log) full) w).effects =
      (log.performAll w.effects
        (lossCalls w (losses settings (deliveries full w.traces.bound w.calls entries)))).1 := by
  induction entries generalizing w with
  | nil => rfl
  | cons e rest ih =>
      have hfollows := visit_follows settings (.log log) full w e
      have hclock := visit_clock settings log full w e
      have hloss : lossCall (visit settings (.log log) full w e) = lossCall w := by
        funext provider f
        simp only [lossCall, faultTrace, hclock, hfollows.traces]
      rw [List.foldl_cons, ih, lossCalls, hloss, visit_effects, hfollows.traces, hfollows.calls,
        deliveries]
      cases hmishap : (e.collect w.calls full w.traces.bound).mishap settings with
      | none => simp [lossCalls, losses, hmishap]
      | some f => simp [lossCalls, losses, hmishap, ErrorLog.performAll_cons]

/-! ### The rows of an assembly -/

/-- The parts of the row of an entry that was lost to a fault of others, which has the text
given. -/
def lossFields (w : World) (provider : Name) (f : Fault) (text : List CodePoint) : Fields :=
  [("ts", .text w.clock.stamp), ("trace_id", .ofPoints (faultTrace w)),
    ("subsystem", .text "provider"), ("error_code", .text "provider_fault"),
    ("severity", .text "WARN"), ("recoverable", .bool true),
    ("user_message", .text ErrorKind.providerFault.userMessage),
    ("safe_context", .ofFields [("error", .ofPoints text), ("provider", provider.value),
      ("exception_type", .text f.className)])]

/-- The row of an entry that was lost to a fault.  One of the library's own errors has its own
row; that of any other fault is read back as a provider fault that names the provider. -/
def LossRow (w : World) (provider : Name) (f : Fault) (row : String) : Prop :=
  match f with
  | .known e _ => ∃ severity safeContext traceback, e.severity.word = .ok severity ∧
      e.safeContext = .ok safeContext ∧
      Json.Style.line.text (ErrorLog.row w.clock.stamp severity e (.ofPoints (faultTrace w))
        (.text "provider") safeContext traceback) = .ok row
  | f => ∃ text doc internal, f.message = .ok text ∧ Json.read (Text.points row) = .ok doc ∧
      doc.toValue = .ofFields (lossFields w provider f text ++ internal)

/-- The error that tells of an entry lost to a fault of others, which has the text given. -/
def lossError (provider : Name) (f : Fault) (text : List CodePoint) : ReportError :=
  .of .providerFault (.text ErrorKind.providerFault.userMessage)
    [(.text "error", .ofPoints text), (.text "provider", provider.value),
      (.text "exception_type", .text f.className)]

/-- A fault of others turns into a provider fault that names the provider, or its text cannot be
made. -/
theorem normalize_loss {f : Fault} (hf : f.isKnown = false) (provider : Name) :
    normalize f (.text "provider") [(.text "provider", provider.value)] =
      (Outcome.ofExcept f.message).map fun text => .known (lossError provider f text) none := by
  rw [ErrorLog.normalize_of_not_known hf]
  cases f.message with
  | error failure => simp [Outcome.ofExcept, Except.map, fail]
  | ok text =>
      simp [Pairs.putNew, Pairs.get?, providerClash, Value.points?, lossError, Outcome.ofExcept,
        Except.map]

/-- The context of a loss holds no secrets and is written as it is. -/
theorem safeContext_loss (provider : Name) (f : Fault) (text : List CodePoint) :
    (lossError provider f text).safeContext =
      .ok (.ofFields [("error", .ofPoints text), ("provider", provider.value),
        ("exception_type", .text f.className)]) := by
  have herror : isSensitive (.text "error") = .ok false := rfl
  have hprovider : isSensitive (.text "provider") = .ok false := rfl
  have htype : isSensitive (.text "exception_type") = .ok false := rfl
  have hname : redact provider.value = .ok provider.value :=
    (Value.ofPoints_inert provider.points).1
  simp [lossError, ReportError.safeContext, ReportError.of, Value.truth, redact, redactPairs,
    herror, hprovider, htype, (Value.ofPoints_inert text).1, hname, Value.ofFields, bind,
    Except.bind, pure, Except.pure]

/-- The row of a loss is read back as the error that tells of it. -/
theorem exists_read_loss {log : ErrorLog} {w : World} {provider : Name} {f : Fault} {row : String}
    {key : SeriesKey} (hf : f.isKnown = false)
    (h : (lossCall w provider f).entry log = .ok (row, key)) :
    ∃ text doc internal, f.message = .ok text ∧ Json.read (Text.points row) = .ok doc ∧
      doc.toValue = .ofFields (lossFields w provider f text ++ internal) := by
  obtain ⟨-, e, cause, severity, safeContext, htold, hseverity, hsafe, -, hread⟩ :=
    ErrorLog.Call.shownBy_of_entry h
  have hnormal : (Outcome.ofExcept f.message).map (fun text =>
      Fault.known (lossError provider f text) none) = .ok (.known e cause) :=
    (normalize_loss hf provider).symm.trans htold
  cases hmessage : f.message with
  | error failure =>
      rw [hmessage] at hnormal
      cases hnormal
  | ok text =>
      rw [hmessage] at hnormal
      cases hnormal
      cases hseverity
      rw [safeContext_loss] at hsafe
      cases hsafe
      obtain ⟨-, hname, hnameFloats⟩ := Value.ofPoints_inert provider.points
      obtain ⟨-, htext, htextFloats⟩ := Value.ofPoints_inert text
      obtain ⟨-, htrace, htraceFloats⟩ := Value.ofPoints_inert (faultTrace w)
      rw [Value.coerced_ofFields (by simp), Value.floats_ofFields] at hread
      obtain ⟨doc, internal, hdoc, hvalue, -⟩ := hread (by
        simp [lossCall, lossError, ReportError.of, Value.floats, Name.value, hnameFloats,
          htextFloats, htraceFloats])
      refine ⟨text, doc, internal, rfl, hdoc, hvalue.trans ?_⟩
      simp [lossFields, lossCall, lossError, ReportError.of, Value.coerced, Name.value, hname,
        htext, htrace, Value.truth, ErrorKind.code, ErrorKind.recoverable, ErrorKind.severity,
        Severity.word]

theorem lossRow_of_entry {log : ErrorLog} {w : World} {provider : Name} {f : Fault} {row : String}
    {key : SeriesKey} (h : (lossCall w provider f).entry log = .ok (row, key)) :
    LossRow w provider f row := by
  cases f with
  | known e cause =>
      obtain ⟨e', cause', htold, -, hline⟩ := ErrorLog.Call.entry_eq_ok h
      cases htold
      exact ErrorLog.line_eq_ok hline
  | raised | failed | invalid | notJson => exact exists_read_loss rfl h

/-- The lines that an isolated assembly adds to its log are the rows of its losses, in order. -/
theorem exists_rows_of_losses (hisolate : settings.isolateFaults = true) (log : ErrorLog)
    {w : World} {registry : Registry} (hordinary : registry.IsOrdinary) (full : Value)
    (hopens : w.files.Opens log.path)
    (hrows : ∀ loss ∈ losses settings (registry.deliveries w full),
      ((lossCall w loss.1 loss.2).entry log).isOk = true) :
    ∃ w' a rows, run settings (.log log) w registry full = (w', .ok a) ∧
      a.faults = (losses settings (registry.deliveries w full)).map (·.1) ∧
      List.Forall₂ (fun loss row => (lossCall w loss.1 loss.2).entry log = .ok row)
        (losses settings (registry.deliveries w full)) rows ∧
      w'.files.bytesAt log.path = w.files.bytesAt log.path ++ ErrorLog.lineBytes rows := by
  have hrun := run_isolated_visits hisolate (.log log) w hordinary full
  have heffects : (registry.entries.foldl (visit settings (.log log) full) w).effects =
      (log.performAll w.effects
        (lossCalls w (losses settings (registry.deliveries w full)))).1 :=
    visits_effects log w registry.entries
  obtain ⟨rows, hentries, hadds⟩ := log.performAll_adds w.effects
    (lossCalls w (losses settings (registry.deliveries w full)))
  have htold : (log.performAll w.effects
      (lossCalls w (losses settings (registry.deliveries w full)))).2 = _ :=
    ErrorLog.performAll_told hopens (List.forall_mem_map.mpr hrows)
  rw [htold, lossCalls, List.forall₂_map_left_iff] at hentries
  refine ⟨_, _, rows, hrun, (losses_map_fst settings _).symm, hentries, ?_⟩
  rw [← heffects] at hadds
  exact hadds.bytes

/-- With isolation, ordinary providers and an error log whose file can be added to, every fault
that a report lists leaves one row, in order, if the rows can be encoded.  The row of a fault of
others is that of a provider fault that names the provider; one of the library's own errors, as
it passes unchanged, has its own row under its own code. -/
theorem every_loss_leaves_a_row (settings : Settings) (hisolate : settings.isolateFaults = true)
    (log : ErrorLog) (w : World) (registry : Registry) (hordinary : registry.IsOrdinary)
    (full : Value) (hopens : w.files.Opens log.path)
    (hrows : ∀ loss ∈ losses settings (registry.deliveries w full),
      ((lossCall w loss.1 loss.2).entry log).isOk = true) :
    ∃ w' a rows, run settings (.log log) w registry full = (w', .ok a) ∧
      a.faults = (losses settings (registry.deliveries w full)).map (·.1) ∧
      w'.files.bytesAt log.path =
        w.files.bytesAt log.path ++ rows.flatMap (fun row => (row ++ "\n").toUTF8.toList) ∧
      (∀ row ∈ rows, '\n' ∉ row.toList) ∧
      List.Forall₂ (fun loss row => LossRow w loss.1 loss.2 row)
        (losses settings (registry.deliveries w full)) rows := by
  obtain ⟨w', a, rows, hrun, hfaults, hentries, hbytes⟩ :=
    exists_rows_of_losses hisolate log hordinary full hopens hrows
  have hboth : List.Forall₂ (fun row loss => '\n' ∉ row.1.toList ∧ LossRow w loss.1 loss.2 row.1)
      rows (losses settings (registry.deliveries w full)) :=
    (hentries.imp fun _ _ hentry =>
      ⟨(ErrorLog.Call.shownBy_of_entry hentry).1, lossRow_of_entry hentry⟩).flip
  obtain ⟨hlines, hloss⟩ := (List.forall₂_and_left _ _).mp hboth
  refine ⟨w', a, rows.map (·.1), hrun, hfaults, ?_, ?_, ?_⟩
  · rw [hbytes, ErrorLog.lineBytes, List.flatMap_map]
  · exact List.forall_mem_map.mpr hlines
  · exact List.forall₂_map_right_iff.mpr hloss.flip

/-- Nothing stands in the way of a file at the root. -/
theorem fresh_opens : World.fresh.files.Opens ErrorLog.sample.path :=
  ⟨rfl, .vacant ["errors.jsonl"] false, ["errors.jsonl"], rfl, .inr rfl⟩

theorem fresh_bytes : World.fresh.files.bytesAt ErrorLog.sample.path = [] := rfl

theorem every_loss_leaves_a_row_sample :
    World.fresh.files.Opens ErrorLog.sample.path ∧
      (∀ loss ∈ losses {} (Registry.sample.deliveries .fresh (.bool true)),
        ((lossCall .fresh loss.1 loss.2).entry .sample).isOk = true) ∧
      ∃ w' a first second, run {} (.log .sample) .fresh .sample (.bool true) = (w', .ok a) ∧
        a.faults = [⟨Text.points "users", by decide, by decide⟩,
          ⟨Text.points "chats", by decide, by decide⟩] ∧
        w'.files.bytesAt ErrorLog.sample.path =
          (first ++ "\n").toUTF8.toList ++ (second ++ "\n").toUTF8.toList ∧
        LossRow .fresh ⟨Text.points "users", by decide, by decide⟩ (.raised "ValueError" []) first ∧
        LossRow .fresh ⟨Text.points "chats", by decide, by decide⟩ (.failed (.fragmentKind "int"))
          second := by
  have hlosses : losses {} (Registry.sample.deliveries .fresh (.bool true)) =
      [(⟨Text.points "users", by decide, by decide⟩, .raised "ValueError" []),
        (⟨Text.points "chats", by decide, by decide⟩, .failed (.fragmentKind "int"))] := rfl
  have hencoded : ∀ loss ∈ losses {} (Registry.sample.deliveries .fresh (.bool true)),
      ((lossCall .fresh loss.1 loss.2).entry .sample).isOk = true := by decide +kernel
  refine ⟨fresh_opens, hencoded, ?_⟩
  obtain ⟨w', a, rows, hrun, hfaults, hbytes, -, hrows⟩ := every_loss_leaves_a_row {} rfl .sample
    .fresh .sample Registry.sample_isOrdinary (.bool true) fresh_opens hencoded
  rw [hlosses] at hrows hfaults
  obtain ⟨first, others, hfirst, hothers, rfl⟩ := List.forall₂_cons_left_iff.mp hrows
  obtain ⟨second, others, hsecond, hnone, rfl⟩ := List.forall₂_cons_left_iff.mp hothers
  rw [List.forall₂_nil_left_iff] at hnone
  subst hnone
  exact ⟨w', a, first, second, hrun, hfaults, by simpa [fresh_bytes] using hbytes, hfirst, hsecond⟩

/-- A registry whose provider raises one of the library's own errors. -/
def misconfigured : Registry where
  entries := [⟨⟨Text.points "rooms", by decide, by decide⟩,
    scripted 0 .plain [.raise (.standard .config [("path", .text "x")]) none]⟩]
  names_nodup := by decide
  callable := by simp [scripted, Provider.isCallable]

/-- The row of such an error has its own code, and does not name the provider. -/
theorem own_error_keeps_its_code :
    ∃ w' a row doc fields, run {} (.log .sample) .fresh misconfigured (.bool true) = (w', .ok a) ∧
      a.faults = [⟨Text.points "rooms", by decide, by decide⟩] ∧
      w'.files.bytesAt ErrorLog.sample.path = (row ++ "\n").toUTF8.toList ∧
      Json.read (Text.points row) = .ok doc ∧ doc.toValue = .ofFields fields ∧
      fields.lookup "error_code" = some (.text "config_error") ∧
      fields.lookup "error_code" ≠ some (.text "provider_fault") ∧
      fields.lookup "safe_context" = some (.ofFields [("path", .text "x")]) := by
  have hordinary : misconfigured.IsOrdinary := by
    intro e he call f hf
    rw [List.mem_singleton.mp he] at hf
    cases hf
    rfl
  have hlosses : losses {} (misconfigured.deliveries .fresh (.bool true)) =
      [(⟨Text.points "rooms", by decide, by decide⟩,
        .standard .config [("path", .text "x")])] := rfl
  have hencoded : ∀ loss ∈ losses {} (misconfigured.deliveries .fresh (.bool true)),
      ((lossCall .fresh loss.1 loss.2).entry .sample).isOk = true := by decide +kernel
  have hisolate : ({} : Settings).isolateFaults = true := rfl
  obtain ⟨w', a, rows, hrun, hfaults, hrows, hbytes⟩ :=
    exists_rows_of_losses hisolate .sample hordinary (.bool true) fresh_opens hencoded
  rw [hlosses] at hrows hfaults
  obtain ⟨row, others, hrow, hnone, rfl⟩ := List.forall₂_cons_left_iff.mp hrows
  rw [List.forall₂_nil_left_iff] at hnone
  subst hnone
  obtain ⟨-, e, cause, severity, safeContext, htold, -, hsafe, -, hread⟩ :=
    ErrorLog.Call.shownBy_of_entry hrow
  cases htold
  cases hsafe
  obtain ⟨doc, internal, hdoc, hvalue, -⟩ := hread fun x hx =>
    absurd (show x ∈ [] from hx) List.not_mem_nil
  have hother : some (Value.text "config_error") ≠ some (Value.text "provider_fault") := by simp
  have hline : w'.files.bytesAt ErrorLog.sample.path = (row.1 ++ "\n").toUTF8.toList := by
    simpa [fresh_bytes, ErrorLog.lineBytes] using hbytes
  exact ⟨w', a, row.1, doc, _, hrun, hfaults, hline, hdoc, hvalue, rfl, hother, rfl⟩

end Assembly

end UsageReport
