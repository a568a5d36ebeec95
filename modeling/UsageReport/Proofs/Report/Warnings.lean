/-
The warnings of an isolated assembly.  Every fault that is listed has its line in the log, and a
sink that raised for it has one right behind.  So with an error log as sink no fault is lost: the
lines about it and the rows that were added are together as many as the faults, and the rows are
as many as were counted.
-/
import UsageReport.Proofs.Report.Trail

namespace UsageReport

/-- Whether a line tells that an error sink raised. -/
def LogEvent.isSinkFailure : LogEvent → Bool
  | sinkFailed _ _ _ => true
  | _ => false

/-- There are as many lines about the sink as faults that it did not take. -/
theorem Telling.countP_lines (trace : TraceId) (told : List Telling) :
    (told.flatMap (·.lines trace)).countP LogEvent.isSinkFailure =
      told.countP (!·.accepted) := by
  induction told with
  | nil => rfl
  | cons t rest ih =>
      rw [List.flatMap_cons, List.countP_append, ih, List.countP_cons]
      cases hrefusal : t.refusal <;>
        simp [Telling.lines, Telling.accepted, hrefusal, LogEvent.isSinkFailure, Nat.add_comm]

/-- The rows and the lines about the sink are together as many as the faults told. -/
theorem Telling.length_filter_accepted (trace : TraceId) (told : List Telling) :
    (told.filter (·.accepted)).length +
      (told.flatMap (·.lines trace)).countP LogEvent.isSinkFailure = told.length := by
  rw [Telling.countP_lines, ← List.countP_eq_length_filter]
  simpa using (List.length_eq_countP_add_countP Telling.accepted (l := told)).symm

namespace Assembly

/-- What a trail adds to an error log: the rows of the faults that the log took, in order, and one
in the counters for each. -/
theorem rows_of_trail {log : ErrorLog} {w w' : World} {calls : List CallRecord}
    {told : List Telling} (h : w.Trail (.log log) calls told w') :
    ∃ rows : List String,
      w'.files.bytesAt log.path =
        w.files.bytesAt log.path ++ rows.flatMap (fun row => (row ++ "\n").toUTF8.toList) ∧
      (∀ row ∈ rows, '\n' ∉ row.toList) ∧
      List.Forall₂ (fun t row => LossRow w t.provider t.fault row) (told.filter (·.accepted))
        rows ∧
      w'.metrics.total (Text.points "errors_total") =
        w.metrics.total (Text.points "errors_total") +
          if log.counts then (rows.length : Int) else 0 := by
  obtain ⟨rows, hentries, hadds, htotal⟩ := h.exists_rows
  have hboth : List.Forall₂ (fun row t => '\n' ∉ row.1.toList ∧ LossRow w t.provider t.fault row.1)
      rows (told.filter (·.accepted)) :=
    (hentries.imp fun _ _ hentry =>
      ⟨(ErrorLog.Call.shownBy_of_entry hentry).1, lossRow_of_entry hentry⟩).flip
  obtain ⟨hlines, hloss⟩ := (List.forall₂_and_left _ _).mp hboth
  have hshown : List.Forall₂ (fun t row => LossRow w t.provider t.fault row)
      (told.filter (·.accepted)) (rows.map (·.1)) := List.forall₂_map_right_iff.mpr hloss.flip
  refine ⟨_, hadds.bytes_rows, List.forall_mem_map.mpr hlines, hshown, ?_⟩
  rw [List.length_map]
  exact htotal

/-- With isolation and ordinary providers, no fault goes unlogged.  The log has one line for every
fault that is listed, in order, with the provider and the class, and right behind it one line
about the sink exactly if that raised for it; nothing else is logged.  With an error log as sink,
each fault that the log took has its row, in order, so rows and lines about the sink are together
as many as the faults, whatever cannot be encoded or written, and the counters of rows hold
together as many more as there are new rows. -/
theorem no_fault_goes_unlogged (settings : Settings) (hisolate : settings.isolateFaults = true)
    (sink : Sink) (w : World) (registry : Registry) (hordinary : registry.IsOrdinary)
    (full : Value) :
    ∃ w' a told added, run settings sink w registry full = (w', .ok a) ∧
      w.Trail sink (registry.entries.map (·.record full)) told w' ∧
      told.map (fun t => (t.provider, t.fault)) = losses settings (registry.deliveries w full) ∧
      a.faults = told.map (·.provider) ∧
      w'.log = w.log ++ added ∧
      added = told.flatMap (fun t =>
        LogEvent.providerFault (faultTrace w) t.provider t.fault.className ::
          match t.refusal with
          | none => []
          | some raised => [.sinkFailed (faultTrace w) t.provider raised.className]) ∧
      ∀ log, sink = .log log → ∃ rows : List String,
        w'.files.bytesAt log.path =
          w.files.bytesAt log.path ++ rows.flatMap (fun row => (row ++ "\n").toUTF8.toList) ∧
        (∀ row ∈ rows, '\n' ∉ row.toList) ∧
        List.Forall₂ (fun t row => LossRow w t.provider t.fault row)
          (told.filter (·.refusal.isNone)) rows ∧
        rows.length + added.countP LogEvent.isSinkFailure = a.faults.length ∧
        w'.metrics.total (Text.points "errors_total") =
          w.metrics.total (Text.points "errors_total") +
            if log.counts then (rows.length : Int) else 0 := by
  obtain ⟨w', a, told, hrun, htrail, hlosses, hfaults⟩ :=
    run_isolated_trail hisolate sink w hordinary full
  have hlines : (fun t : Telling =>
      LogEvent.providerFault (faultTrace w) t.provider t.fault.className ::
        match t.refusal with
        | none => []
        | some raised => [.sinkFailed (faultTrace w) t.provider raised.className]) =
      Telling.lines (faultTrace w) := by
    funext t
    cases hrefusal : t.refusal <;> simp [Telling.lines, hrefusal]
  refine ⟨w', a, told, _, hrun, htrail, hlosses, hfaults, htrail.log, by rw [hlines], ?_⟩
  rintro log rfl
  obtain ⟨rows, hbytes, hfree, hrows, htotal⟩ := rows_of_trail htrail
  refine ⟨rows, hbytes, hfree, hrows, ?_, htotal⟩
  have hcount := Telling.length_filter_accepted (faultTrace w) told
  rw [hrows.length_eq] at hcount
  rw [hfaults, List.length_map, hcount]

/-- Two providers that raise: a fault of others, and one of the library's own errors whose context
has no JSON form. -/
def unloggable : Registry where
  entries := [
    ⟨⟨Text.points "stars", by decide, by decide⟩,
      scripted 0 .plain [.raise (.raised "ValueError" []) none]⟩,
    ⟨⟨Text.points "blobs", by decide, by decide⟩,
      scripted 1 .plain [.raise (.standard .config [("blob", .bytes [1])]) none]⟩]
  names_nodup := by decide
  callable := by
    intro e he
    simp only [List.mem_cons, List.not_mem_nil, or_false] at he
    rcases he with rfl | rfl <;> rfl

theorem unloggable_isOrdinary : unloggable.IsOrdinary := by
  intro e he call f hf
  simp only [unloggable, List.mem_cons, List.not_mem_nil, or_false] at he
  rcases he with rfl | rfl <;>
  · cases hf
    rfl

/-- One of two faults gets its row, and the other a line about the sink. -/
theorem no_fault_goes_unlogged_unloggable :
    ({} : Settings).isolateFaults = true ∧ unloggable.IsOrdinary ∧
      ∃ w' a row, run {} (.log .sample) .fresh unloggable (.bool true) = (w', .ok a) ∧
        a.faults.length = 2 ∧
        w'.log.map (·.message.toOption) = [
          some (Text.points ("memory_stats provider fault trace_id=memory_stats provider=stars " ++
            "error=ValueError")),
          some (Text.points ("memory_stats provider fault trace_id=memory_stats provider=blobs " ++
            "error=ConfigError")),
          some (Text.points ("memory_stats error sink failed trace_id=memory_stats " ++
            "provider=blobs error=TypeError"))] ∧
        w'.files.bytesAt ErrorLog.sample.path = (row ++ "\n").toUTF8.toList ∧
        w'.metrics.total (Text.points "errors_total") = 1 := by
  refine ⟨rfl, unloggable_isOrdinary, ?_⟩
  obtain ⟨w', a, told, added, hrun, -, -, -, hlog, -, hlogged⟩ := no_fault_goes_unlogged {} rfl
    (.log .sample) .fresh unloggable unloggable_isOrdinary (.bool true)
  obtain ⟨rows, hbytes, -, -, hcount, htotal⟩ := hlogged .sample rfl
  have hfaults : a.faults.length = 2 := by
    cases hrun
    rfl
  have hfailures : (run {} (.log .sample) .fresh unloggable (.bool true)).1.log.countP
      LogEvent.isSinkFailure = 1 := by decide +kernel
  have hw : (run {} (.log .sample) .fresh unloggable (.bool true)).1 = w' := by rw [hrun]
  rw [hw] at hfailures
  have hadded : added = w'.log := hlog.symm
  have hone : rows.length = 1 := by
    rw [hadded, hfailures, hfaults] at hcount
    exact Nat.add_right_cancel hcount
  obtain ⟨row, rfl⟩ := List.length_eq_one_iff.mp hone
  refine ⟨w', a, row, hrun, hfaults, ?_, ?_, htotal⟩
  · rw [← hw]
    decide +kernel
  · rw [hbytes, fresh_bytes]
    simp

end Assembly

end UsageReport
