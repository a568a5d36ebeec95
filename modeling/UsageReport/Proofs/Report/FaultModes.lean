/-
The two fault modes.  Both walk through the same deliveries.  Without isolation the walk goes
on as long as nothing fails, changing nothing in the world but the calls, and the first failure
ends it; with isolation that failure is the first one listed.
-/
import UsageReport.Proofs.Fault
import UsageReport.Proofs.Report.Isolation

namespace UsageReport

open Text (CodePoint)

/-- The world after calls, and after nothing else. -/
def World.noteCalls (w : World) (calls : List CallRecord) : World :=
  { w with calls := w.calls ++ calls }

theorem World.noteCalls_nil (w : World) : w.noteCalls [] = w := by
  simp [World.noteCalls]

theorem World.noteCall_noteCalls (w : World) (call : CallRecord) (calls : List CallRecord) :
    (w.noteCall call).noteCalls calls = w.noteCalls (call :: calls) := by
  simp [World.noteCalls, World.noteCall]

/-- Where the deliveries fall into two parts, so do the entries. -/
theorem deliveries_eq_append_cons {full : Value} {trace : Option TraceId}
    {calls : List CallRecord} {entries : List Entry} {before after : List (Entry × Delivery)}
    {p : Entry × Delivery} (h : deliveries full trace calls entries = before ++ p :: after) :
    entries = before.map (·.1) ++ p.1 :: after.map (·.1) ∧
      deliveries full trace calls (before.map (·.1)) = before ∧
      p.1.collect (calls ++ (before.map (·.1)).map (·.record full)) full trace = p.2 := by
  have hentries : entries = before.map (·.1) ++ p.1 :: after.map (·.1) := by
    rw [← deliveries_map_fst full trace calls entries, h]
    simp
  rw [hentries, deliveries_append] at h
  have hlength : (deliveries full trace calls (before.map (·.1))).length = before.length := by
    rw [length_deliveries, List.length_map]
  obtain ⟨hbefore, hrest⟩ := List.append_inj h hlength
  rw [deliveries, List.cons.injEq] at hrest
  exact ⟨hentries, hbefore, congrArg Prod.snd hrest.1⟩

/-- Either no delivery fails, or there is a first that does. -/
theorem fine_or_first_failure (settings : Settings) (delivered : List (Entry × Delivery)) :
    (∀ p ∈ delivered, p.2.fails settings = false) ∨
      ∃ before p after, delivered = before ++ p :: after ∧
        (∀ q ∈ before, q.2.fails settings = false) ∧ p.2.fails settings = true := by
  cases hfind : delivered.find? (fun p => p.2.fails settings) with
  | none =>
      left
      intro p hp
      simpa using List.find?_eq_none.mp hfind p hp
  | some p =>
      right
      obtain ⟨hp, before, after, hsplit, hbefore⟩ := List.find?_eq_some_iff_append.mp hfind
      exact ⟨before, p, after, hsplit, fun q hq => by simpa using hbefore q hq, hp⟩

theorem lostNames_of_fine {settings : Settings} {delivered : List (Entry × Delivery)}
    (h : ∀ p ∈ delivered, p.2.fails settings = false) : lostNames settings delivered = [] := by
  rw [lostNames, List.map_eq_nil_iff, List.filter_eq_nil_iff]
  intro p hp
  simp [h p hp]

theorem lostNames_of_first_failure {settings : Settings} {before : List (Entry × Delivery)}
    {p : Entry × Delivery} (hbefore : ∀ q ∈ before, q.2.fails settings = false)
    (hp : p.2.fails settings = true) (after : List (Entry × Delivery)) :
    lostNames settings (before ++ p :: after) = p.1.name :: lostNames settings after := by
  have hnone := lostNames_of_fine hbefore
  unfold lostNames at hnone ⊢
  rw [List.filter_append, List.map_append, hnone, List.filter_cons, if_pos hp, List.map_cons,
    List.nil_append]

namespace Assembly

variable {settings : Settings} {sink : Sink} {full : Value}

theorem collect_of_fine (w : World) {e : Entry} {d : Delivery}
    (hd : e.collect w.calls full w.traces.bound = d) (hfine : d.fails settings = false) :
    collect settings sink full w e = (w.noteCall (e.record full), .ok (some d.texts)) := by
  simp [collect_eq, hd, usable_of_not_fails hfine]

/-- Without isolation, a failure ends the collection; the call is all that happened. -/
theorem collect_of_failure (hstrict : settings.isolateFaults = false) (w : World) {e : Entry}
    (hordinary : e.provider.IsOrdinary) {d : Delivery}
    (hd : e.collect w.calls full w.traces.bound = d) {f : Fault}
    (hf : d.mishap settings = some f) :
    collect settings sink full w e =
      (w.noteCall (e.record full), .error (abortion e.name f)) := by
  have hcatch : f.isCatchable = true :=
    Delivery.mishap_isCatchable (fun f hf => Entry.fault_isCatchable hordinary (hd ▸ hf)) hf
  simp [collect_eq, hd, usable_of_mishap hf, hcatch, hstrict]

/-- A walk covers entries that do not fail, in either mode, and goes on behind them. -/
theorem walk_append_of_fine (sink : Sink) {w : World} {s : Walk}
    {delivered : List (Entry × Delivery)} (hcovers : s.Covers settings delivered)
    {before : List Entry}
    (hfine : ∀ p ∈ deliveries full w.traces.bound w.calls before, p.2.fails settings = false)
    (hnames : (delivered.map (·.1.name) ++ before.map (·.name)).Nodup) (after : List Entry) :
    ∃ s', s'.Covers settings
        (delivered ++ deliveries full w.traces.bound w.calls before) ∧
      walk settings sink full w s (before ++ after) =
        walk settings sink full (w.noteCalls (before.map (·.record full))) s' after := by
  induction before generalizing w s delivered with
  | nil =>
      refine ⟨s, by simpa [deliveries] using hcovers, ?_⟩
      rw [List.map_nil, World.noteCalls_nil, List.nil_append]
  | cons e rest ih =>
      have hfine₁ := hfine (e, e.collect w.calls full w.traces.bound) List.mem_cons_self
      have hcollect : collect settings sink full w e = _ := collect_of_fine w rfl hfine₁
      have hname : e.name ∉ delivered.map (·.1.name) := fun hmem =>
        List.disjoint_of_nodup_append hnames hmem List.mem_cons_self
      obtain ⟨s₁, hput, hcovers₁⟩ := hcovers.put hname (e.collect w.calls full w.traces.bound)
      rw [if_neg (by simpa using hfine₁)] at hput
      obtain ⟨s₂, hcovers₂, hwalk⟩ := ih (w := w.noteCall (e.record full)) hcovers₁
        (fun p hp => hfine p (List.mem_cons_of_mem _ hp)) (by simpa using hnames)
      refine ⟨s₂, by simpa [deliveries, World.noteCall] using hcovers₂, ?_⟩
      rw [List.map_cons, ← World.noteCall_noteCalls, ← hwalk, List.cons_append]
      simp only [walk, hcollect, hput]

section Strict

variable {w : World} {registry : Registry}

/-- Where nothing fails, an assembly ends well in either mode. -/
theorem run_of_fine
    (hfine : ∀ p ∈ registry.deliveries w full, p.2.fails settings = false) :
    run settings sink w registry full =
      (w.noteCalls (registry.entries.map (·.record full)),
        .ok ⟨reportText (segments settings (registry.deliveries w full)), registry.size, []⟩) := by
  obtain ⟨start, hcovers, hrun, -⟩ := exists_start settings sink w registry full
  obtain ⟨s, hcovers', hwalk⟩ := walk_append_of_fine sink hcovers hfine
    (by simpa using registry.names_nodup) []
  rw [List.append_nil, walk] at hwalk
  have hnone : lostNames settings (deliveries full w.traces.bound w.calls registry.entries) = [] :=
    lostNames_of_fine hfine
  rw [hrun _ _ hwalk, hcovers'.finish, List.nil_append, length_deliveries, hnone,
    Registry.deliveries, Registry.size]

/-- Without isolation, the first failure ends the assembly, and the calls up to it are all that
happened. -/
theorem run_of_first_failure (hstrict : settings.isolateFaults = false)
    (hordinary : registry.IsOrdinary) {before after : List (Entry × Delivery)}
    {p : Entry × Delivery} (hsplit : registry.deliveries w full = before ++ p :: after)
    (hfine : ∀ q ∈ before, q.2.fails settings = false) {f : Fault}
    (hf : p.2.mishap settings = some f) :
    run settings sink w registry full =
      (w.noteCalls ((before.map (·.1) ++ [p.1]).map (·.record full)),
        .error (abortion p.1.name f)) := by
  obtain ⟨hentries, hbefore, hcollect⟩ := deliveries_eq_append_cons hsplit
  obtain ⟨start, hcovers, -, hrun⟩ := exists_start settings sink w registry full
  have hnames := registry.names_nodup
  rw [hentries, List.map_append] at hnames
  obtain ⟨s, -, hwalk⟩ := walk_append_of_fine sink hcovers
    (hbefore.symm ▸ hfine) (by simpa using (List.nodup_append.mp hnames).1)
    (p.1 :: after.map (·.1))
  have hp : p.1 ∈ registry.entries := by simp [hentries]
  have hstop : collect settings sink full
      (w.noteCalls ((before.map (·.1)).map (·.record full))) p.1 =
        (_, .error (abortion p.1.name f)) :=
    collect_of_failure hstrict _ (hordinary p.1 hp) hcollect hf
  rw [← hentries, walk, hstop] at hwalk
  rw [hrun _ _ hwalk, List.map_append, List.map_singleton]
  simp [World.noteCalls, World.noteCall]

end Strict

theorem abortion_of_message {provider : Name} {cause : Fault} {text : List CodePoint}
    (h : cause.message = .ok text) :
    abortion provider cause = .known (ReportError.standard .providerFault
      [("provider", provider.value), ("error", .ofPoints text)]) (some cause) := by
  rw [abortion, h]

theorem abortion_of_no_message {provider : Name} {cause : Fault} {failure : Failure}
    (h : cause.message = .error failure) : abortion provider cause = .failed failure := by
  rw [abortion, h]

/-- The classes of what a fault turns into when faults are not isolated. -/
def abortionClasses : List String := ["ProviderFaultError", "ValueError", "SystemError"]

theorem className_abortion_mem (provider : Name) (cause : Fault) :
    (abortion provider cause).className ∈ abortionClasses := by
  cases hmessage : cause.message with
  | ok text =>
      rw [abortion_of_message hmessage]
      exact List.mem_cons_self
  | error failure =>
      rw [abortion_of_no_message hmessage]
      rcases cause.failsUntold_message _ hmessage with rfl | rfl <;>
        simp [abortionClasses, Fault.className, Failure.className]

/-- What a fault turns into when faults are not isolated is no interruption. -/
theorem abortion_isCatchable (provider : Name) (cause : Fault) :
    (abortion provider cause).isCatchable = true := by
  cases hmessage : cause.message with
  | ok text =>
      rw [abortion_of_message hmessage]
      rfl
  | error failure =>
      rw [abortion_of_no_message hmessage]
      rcases cause.failsUntold_message _ hmessage with rfl | rfl <;> rfl

/-- Both modes agree on providers that deliver the same in both runs.  Without isolation an
assembly fails exactly if the isolated one lists a name.  Its error then tells the first of
these names and the mishap of that entry, which is its cause, or is the failure to make the text of
that mishap; the providers up to that one were called, and nothing else in the world changed.  If it
does not fail, the assemblies are equal. -/
theorem strict_run_agrees_with_isolated (settings : Settings) (sink sink' : Sink) (w w' : World)
    (registry : Registry) (hordinary : registry.IsOrdinary) (full : Value)
    (hsame : registry.deliveries w full = registry.deliveries w' full) :
    ∃ isolated a strict outcome,
      run { settings with isolateFaults := true } sink w registry full = (isolated, .ok a) ∧
      run { settings with isolateFaults := false } sink' w' registry full = (strict, outcome) ∧
      ((∃ f, outcome = .error f) ↔ a.faults ≠ []) ∧
      (∀ b, outcome = .ok b → b = a) ∧
      ∀ f, outcome = .error f → ∃ before e after d cause,
        registry.entries = before ++ e :: after ∧
        a.faults.head? = some e.name ∧
        (registry.deliveries w' full)[before.length]? = some (e, d) ∧
        d.mishap settings = some cause ∧
        (∀ text, cause.message = .ok text → f = .known (ReportError.standard .providerFault
          [("provider", e.name.value), ("error", .ofPoints text)]) (some cause)) ∧
        (∀ failure, cause.message = .error failure → f = .failed failure) ∧
        strict = { w' with calls := w'.calls ++ (before ++ [e]).map (·.record full) } := by
  have hisolate : ({ settings with isolateFaults := true } : Settings).isolateFaults = true := rfl
  have hstop : ({ settings with isolateFaults := false } : Settings).isolateFaults = false := rfl
  obtain ⟨isolated, hisolated, -⟩ := run_isolated hisolate sink w hordinary full
  rcases fine_or_first_failure settings (registry.deliveries w' full) with
    hfine | ⟨before, p, after, hsplit, hbefore, hp⟩
  · have hnone := lostNames_of_fine hfine
    have hstrict : run { settings with isolateFaults := false } sink' w' registry full = _ :=
      run_of_fine hfine
    refine ⟨isolated, _, _, _, hisolated, hstrict, ?_, ?_, ?_⟩
    · rw [hsame]
      refine ⟨fun ⟨f, hf⟩ => ?_, fun hlost => absurd hnone hlost⟩
      cases hf
    · intro b hb
      cases hb
      rw [hsame]
      exact congrArg (Assembly.mk _ _) hnone.symm
    · intro f hf
      cases hf
  · obtain ⟨cause, hcause⟩ := Delivery.exists_mishap hp
    have hlost := lostNames_of_first_failure hbefore hp after
    rw [← hsplit, ← hsame] at hlost
    have hstrict : run { settings with isolateFaults := false } sink' w' registry full = _ :=
      run_of_first_failure hstop hordinary hsplit hbefore hcause
    refine ⟨isolated, _, _, _, hisolated, hstrict, ?_, ?_, ?_⟩
    · refine ⟨fun _ hnil => ?_, fun _ => ⟨_, rfl⟩⟩
      exact List.cons_ne_nil _ _ (hlost.symm.trans hnil)
    · intro b hb
      cases hb
    · intro f hf
      cases hf
      obtain ⟨hentries, -, -⟩ := deliveries_eq_append_cons hsplit
      refine ⟨before.map (·.1), p.1, after.map (·.1), p.2, cause, hentries, ?_, ?_, hcause,
        fun text => abortion_of_message, fun failure => abortion_of_no_message, rfl⟩
      · exact congrArg List.head? hlost
      · rw [hsplit, List.length_map]
        simp

theorem strict_run_agrees_with_isolated_sample :
    Registry.sample.IsOrdinary ∧
      Registry.sample.deliveries .fresh (.bool true) =
        Registry.sample.deliveries .fresh (.bool true) ∧
      ∃ isolated a strict f,
        run {} .none .fresh .sample (.bool true) = (isolated, .ok a) ∧
        a.faults.length = 2 ∧
        run { isolateFaults := false } .none .fresh .sample (.bool true) = (strict, .error f) ∧
        f.className = "ProviderFaultError" := by
  refine ⟨Registry.sample_isOrdinary, rfl, ?_⟩
  obtain ⟨isolated, a, strict, outcome, hisolated, hstrict, hfails, -, -⟩ :=
    strict_run_agrees_with_isolated {} .none .none .fresh .fresh .sample
      Registry.sample_isOrdinary (.bool true) rfl
  have hfaults : a.faults.length = 2 := by
    cases hisolated
    rfl
  obtain ⟨f, rfl⟩ := hfails.mpr fun hnil => by simp [hnil] at hfaults
  refine ⟨isolated, a, strict, f, hisolated, hfaults, hstrict, ?_⟩
  cases hstrict
  rfl

/-- A fault whose text cannot be made leaves an assembly without isolation with the failure to make
it, not with an error that tells of the provider; an isolated one lists the name. -/
theorem untold_fault_leaves_strict_run :
    (∃ w a, run {} .none .fresh (.raising (.raised "RuntimeError" [.tooLong])) (.bool false) =
        (w, .ok a) ∧ a.faults.map (·.points) = [Text.points "users"]) ∧
      (run { isolateFaults := false } .none .fresh (.raising (.raised "RuntimeError" [.tooLong]))
        (.bool false)).2 = fail .tooLongToWrite ∧
      (run { isolateFaults := false } .none .fresh (.raising (.raised "UnicodeEncodeError"
        [.text "utf-8", .text "abc", .int (-1), .int 0, .text "r"])) (.bool false)).2 =
          fail .strayResult := by
  have hstrict {f : Fault} {failure : Failure} (hcatch : f.isCatchable = true)
      (hmessage : f.message = .error failure) :
      (run { isolateFaults := false } .none .fresh (.raising f) (.bool false)).2 =
        fail failure := by
    have hsplit : (Registry.raising f).deliveries .fresh (.bool false) =
        [] ++ (_, ⟨[], some f⟩) :: [] := rfl
    have hmishap : Delivery.mishap { isolateFaults := false } ⟨[], some f⟩ = some f := rfl
    rw [run_of_first_failure rfl (Registry.raising_isOrdinary hcatch) hsplit (by simp) hmishap,
      abortion_of_no_message hmessage]
    rfl
  have hsingle (x : Value) : (Fault.raised "RuntimeError" [x]).message = x.written := rfl
  have hlong : (Fault.raised "RuntimeError" [.tooLong]).message = .error .tooLongToWrite := by
    rw [hsingle]
    exact Value.written_eq_error_iff.mpr ⟨Value.hasText_tooLong, rfl⟩
  have hisolate : ({} : Settings).isolateFaults = true := rfl
  obtain ⟨w, hrun, -⟩ := run_isolated hisolate .none .fresh
    (Registry.raising_isOrdinary (f := .raised "RuntimeError" [.tooLong]) rfl) (.bool false)
  exact ⟨⟨w, _, hrun, rfl⟩, hstrict rfl hlong, hstrict rfl rfl⟩

end Assembly

end UsageReport
