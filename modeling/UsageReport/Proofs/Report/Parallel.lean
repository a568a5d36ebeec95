/-
Requests in two worlds.  Providers that answer by the number of the call and the wish for details
alone deliver the same in any two worlds that called them equally often.  Then assemblies go the
same way in both, whatever the sinks make of the faults, whatever is bound and whatever time it
is: they end alike, make the same calls and tell of the same faults.
-/
import UsageReport.Proofs.ErrorLog.Stamps
import UsageReport.Proofs.Report.Request
import UsageReport.Proofs.Report.Trail

namespace UsageReport

/-- The provider does not look at the trace that is bound. -/
def Provider.IgnoresTrace (p : Provider) : Prop :=
  ∀ call trace, p.behave { call with trace } = p.behave call

/-- The providers of entries were called equally often in both lists of calls. -/
def SameCounts (entries : List Entry) (calls calls' : List CallRecord) : Prop :=
  ∀ e ∈ entries, callCount calls' e.provider.identity = callCount calls e.provider.identity

theorem callCount_append (calls more : List CallRecord) (identity : Nat) :
    callCount (calls ++ more) identity = callCount calls identity + callCount more identity :=
  List.countP_append

theorem SameCounts.append {entries : List Entry} {calls calls' : List CallRecord}
    (h : SameCounts entries calls calls') (more : List CallRecord) :
    SameCounts entries (calls ++ more) (calls' ++ more) := by
  intro e he
  rw [callCount_append, callCount_append, h e he]

/-- A provider that was called equally often delivers the same. -/
theorem Entry.collect_eq {e : Entry} (hignores : e.provider.IgnoresTrace)
    {calls calls' : List CallRecord}
    (hcount : callCount calls' e.provider.identity = callCount calls e.provider.identity)
    (full : Value) (trace trace' : Option TraceId) :
    e.collect calls' full trace' = e.collect calls full trace := by
  unfold Entry.collect
  rw [hcount]
  exact hignores ⟨_, _, trace⟩ trace'

/-- On the way from either world the same calls are made, and the same faults are told. -/
def World.GoAlike (sink sink' : Sink) (w w' u u' : World) : Prop :=
  ∃ calls told told', w.Trail sink calls told u ∧ w'.Trail sink' calls told' u' ∧
    told'.map Telling.loss = told.map Telling.loss

theorem World.GoAlike.trans {sink sink' : Sink} {w w' u u' v v' : World}
    (h : w.GoAlike sink sink' w' u u') (h' : u.GoAlike sink sink' u' v v') :
    w.GoAlike sink sink' w' v v' := by
  obtain ⟨calls, told, told', htrail, htrail', hlosses⟩ := h
  obtain ⟨more, others, others', hrest, hrest', hrests⟩ := h'
  refine ⟨calls ++ more, told ++ others, told' ++ others', htrail.trans hrest,
    htrail'.trans hrest', ?_⟩
  rw [List.map_append, List.map_append, hlosses, hrests]

theorem World.GoAlike.counts {sink sink' : Sink} {w w' u u' : World}
    (h : w.GoAlike sink sink' w' u u') {entries : List Entry}
    (hcounts : SameCounts entries w.calls w'.calls) : SameCounts entries u.calls u'.calls := by
  obtain ⟨calls, told, told', htrail, htrail', -⟩ := h
  rw [htrail.follows.calls, htrail'.follows.calls]
  exact hcounts.append calls

namespace Assembly

variable {settings : Settings} {sink sink' : Sink} {full : Value} {w w' : World}

theorem collect_alike (settings : Settings) (sink sink' : Sink) (full : Value) {e : Entry}
    (hignores : e.provider.IgnoresTrace)
    (hcount : callCount w'.calls e.provider.identity = callCount w.calls e.provider.identity) :
    (collect settings sink' full w' e).2 = (collect settings sink full w e).2 ∧
      w.GoAlike sink sink' w' (collect settings sink full w e).1
        (collect settings sink' full w' e).1 := by
  have hcalled : w.GoAlike sink sink' w' (w.noteCall (e.record full))
      (w'.noteCall (e.record full)) :=
    ⟨_, _, _, .call _ (.done _), .call _ (.done _), rfl⟩
  rw [collect_eq, collect_eq,
    Entry.collect_eq hignores hcount full w.traces.bound w'.traces.bound]
  simp only
  split
  · exact ⟨rfl, hcalled⟩
  · next f _ =>
    split
    · exact ⟨rfl, hcalled⟩
    · split
      · refine ⟨rfl, hcalled.trans ?_⟩
        exact ⟨_, _, _, .tell e.name f (.done _), .tell e.name f (.done _), rfl⟩
      · exact ⟨rfl, hcalled⟩

theorem walk_alike (settings : Settings) (sink sink' : Sink) (full : Value) (s : Walk)
    {entries : List Entry} (hignores : ∀ e ∈ entries, e.provider.IgnoresTrace)
    (hcounts : SameCounts entries w.calls w'.calls) :
    (walk settings sink' full w' s entries).2 = (walk settings sink full w s entries).2 ∧
      w.GoAlike sink sink' w' (walk settings sink full w s entries).1
        (walk settings sink' full w' s entries).1 := by
  induction entries generalizing w w' s with
  | nil => exact ⟨rfl, [], [], [], .done w, .done w', rfl⟩
  | cons e rest ih =>
      obtain ⟨houtcome, halike⟩ := collect_alike settings sink sink' full
        (hignores e List.mem_cons_self) (hcounts e List.mem_cons_self)
      have hrest (u : Walk) := ih u (fun e' he' => hignores e' (List.mem_cons_of_mem _ he'))
        (halike.counts fun e' he' => hcounts e' (List.mem_cons_of_mem _ he'))
      rw [walk, walk]
      generalize collect settings sink full w e = collected at houtcome halike hrest ⊢
      generalize collect settings sink' full w' e = collected' at houtcome halike hrest ⊢
      obtain ⟨u, outcome⟩ := collected
      obtain ⟨u', outcome'⟩ := collected'
      cases houtcome
      cases outcome with
      | error f => exact ⟨rfl, halike⟩
      | ok pieces =>
          cases hput : s.put settings e.name pieces with
          | error f =>
              simp only [hput]
              exact ⟨trivial, halike⟩
          | ok next =>
              simp only [hput]
              exact ⟨(hrest next).1, halike.trans (hrest next).2⟩

/-- Assemblies of one registry end alike in two worlds, and go the same way. -/
theorem run_alike (settings : Settings) (sink sink' : Sink) (full : Value) {registry : Registry}
    (hignores : ∀ e ∈ registry.entries, e.provider.IgnoresTrace)
    (hcounts : SameCounts registry.entries w.calls w'.calls) :
    (run settings sink' w' registry full).2 = (run settings sink w registry full).2 ∧
      w.GoAlike sink sink' w' (run settings sink w registry full).1
        (run settings sink' w' registry full).1 := by
  unfold run
  split
  · exact ⟨rfl, [], [], [], .done w, .done w', rfl⟩
  · next envelope _ =>
    obtain ⟨houtcome, halike⟩ :=
      walk_alike settings sink sink' full ⟨envelope, []⟩ hignores hcounts
    generalize walk settings sink full w ⟨envelope, []⟩ registry.entries = walked
      at houtcome halike ⊢
    generalize walk settings sink' full w' ⟨envelope, []⟩ registry.entries = walked'
      at houtcome halike ⊢
    obtain ⟨u, outcome⟩ := walked
    obtain ⟨u', outcome'⟩ := walked'
    cases houtcome
    cases outcome with
    | error f => exact ⟨rfl, halike⟩
    | ok s => exact ⟨rfl, halike⟩

end Assembly

/-! ### What requests leave -/

/-- The trace that is bound, if one is, can be written. -/
def TraceState.Writable (t : TraceState) : Prop := ∀ id, t.bound = some id → ErrorLog.IsText id

theorem isText_freshTrace (n : Nat) : ErrorLog.IsText (freshTrace n) :=
  ⟨_, by rw [freshTrace, Value.ofPoints, Text.characters?_map_char]⟩

/-- The trace of a request can be written exactly if one that is bound can be. -/
theorem TraceState.isText_inherit_iff (t : TraceState) :
    ErrorLog.IsText t.inherit.1 ↔ t.Writable := by
  unfold inherit Writable
  cases t.bound with
  | some id => simp
  | none => simp [fresh, isText_freshTrace]

/-- The second world is what a request leaves of the first, that makes the calls given and tells of
some faults. -/
def World.Leaves (sink : Sink) (w u : World) (calls : List CallRecord) (told : List Telling) :
    Prop :=
  u.traces.bound = w.traces.bound ∧ ∃ v, w.underTrace.Trail sink calls told v ∧
    u.files = v.files ∧ u.calls = v.calls ∧ u.metrics.limit = v.metrics.limit

namespace World.Leaves

open Assembly (lossCall lossCalls faultTrace)

variable {sink : Sink} {log log' : ErrorLog} {w w' u u' : World} {calls calls' : List CallRecord}
  {told told' : List Telling}

/-- Where nothing happens, nothing is left. -/
theorem refl (sink : Sink) (w : World) : w.Leaves sink w [] [] :=
  ⟨rfl, w.underTrace, .done _, rfl, rfl, rfl⟩

theorem calls_eq (h : w.Leaves sink u calls told) : u.calls = w.calls ++ calls := by
  obtain ⟨-, v, htrail, -, hcalls, -⟩ := h
  rw [hcalls, htrail.follows.calls]
  rfl

theorem limit_eq (h : w.Leaves sink u calls told) : u.metrics.limit = w.metrics.limit := by
  obtain ⟨-, v, htrail, -, -, hlimit⟩ := h
  rw [hlimit, htrail.follows.metrics.limit]
  rfl

/-- A request leaves the binding as it was. -/
theorem writable_iff (h : w.Leaves sink u calls told) : u.traces.Writable ↔ w.traces.Writable := by
  rw [TraceState.Writable, TraceState.Writable, h.1]

/-- A request changes nothing about whether the file of an error log can be added to. -/
theorem opens_iff (h : w.Leaves (.log log) u calls told) :
    u.files.Opens log.path ↔ w.files.Opens log.path := by
  obtain ⟨-, v, htrail, hfiles, -, -⟩ := h
  have hopens := ErrorLog.opens_performAll log w.underTrace.effects
    (lossCalls w.underTrace (told.map Telling.loss))
  rw [htrail.performAll] at hopens
  rw [hfiles]
  exact hopens

/-- Requests that tell of the same faults, under traces that can both be written, or neither, leave
the same rows up to their stamps. -/
theorem exists_rows (h : w.Leaves (.log log) u calls told)
    (h' : w'.Leaves (.log log') u' calls' told')
    (hlosses : told'.map Telling.loss = told.map Telling.loss)
    (htracebacks : log'.tracebacks = log.tracebacks)
    (hopens : w.files.Opens log.path ↔ w'.files.Opens log'.path)
    (hwritable : w.traces.Writable ↔ w'.traces.Writable) :
    ∃ rows rows' : List String,
      u.files.bytesAt log.path =
        w.files.bytesAt log.path ++ rows.flatMap (fun row => (row ++ "\n").toUTF8.toList) ∧
      u'.files.bytesAt log'.path =
        w'.files.bytesAt log'.path ++ rows'.flatMap (fun row => (row ++ "\n").toUTF8.toList) ∧
      List.Forall₂ ErrorLog.SameButStamps rows rows' := by
  obtain ⟨-, v, htrail, hfiles, -, -⟩ := h
  obtain ⟨-, v', htrail', hfiles', -, -⟩ := h'
  have htexts : ErrorLog.IsText (faultTrace w.underTrace) ↔
      ErrorLog.IsText (faultTrace w'.underTrace) :=
    (w.traces.isText_inherit_iff.trans hwritable).trans w'.traces.isText_inherit_iff.symm
  have hcalls : List.Forall₂ ErrorLog.Restamped
      (lossCalls w.underTrace (told.map Telling.loss))
      (lossCalls w'.underTrace (told'.map Telling.loss)) := by
    rw [hlosses, lossCalls, lossCalls, List.forall₂_map_left_iff, List.forall₂_map_right_iff,
      List.forall₂_same]
    exact fun loss _ => ⟨_, w'.underTrace.clock.stamp, faultTrace w'.underTrace, rfl, rfl,
      htexts⟩
  have hunder : w.underTrace.effects.files.Opens log.path ↔
      w'.underTrace.effects.files.Opens log'.path := hopens
  obtain ⟨rows, rows', hadds, hadds', hrows⟩ :=
    ErrorLog.performAll_restamped htracebacks hunder hcalls
  rw [htrail.performAll] at hadds
  rw [htrail'.performAll] at hadds'
  rw [hfiles, hfiles']
  refine ⟨_, _, hadds.bytes_rows, hadds'.bytes_rows, ?_⟩
  rw [List.forall₂_map_left_iff, List.forall₂_map_right_iff]
  exact hrows

end World.Leaves

namespace Aggregator

variable {a a' : Aggregator} {α : Type}

/-- Answering leaves what the assembly left, but for the log and what is counted. -/
theorem request_leaves_of_run (hopen : a.closed = false) {w w₁ : World} {full : Value}
    {assembled : Outcome Assembly} {calls : List CallRecord} {told : List Telling}
    (hrun : Assembly.run a.settings a.sink w.underTrace a.registry (.bool full.truth) =
      (w₁, assembled))
    (htrail : w.underTrace.Trail a.sink calls told w₁) (deliver : Report → α) (p : Promise α) :
    w.Leaves a.sink (a.request w deliver full p).1 calls told := by
  obtain ⟨added, m, hworld, -, hlimit⟩ := a.answer_world w₁ w.traces.inherit.1 full.truth
    deliver p assembled
  have hanswered := congrArg Prod.fst (request_eq hopen hrun deliver p)
  simp only [hworld] at hanswered
  rw [hanswered]
  exact ⟨rfl, w₁, htrail, rfl, rfl, hlimit⟩

/-- A request of an open aggregator leaves a trail, however it ends. -/
theorem request_leaves (hopen : a.closed = false) (w : World) (deliver : Report → α)
    (full : Value) (p : Promise α) :
    ∃ calls told, w.Leaves a.sink (a.request w deliver full p).1 calls told := by
  obtain ⟨calls, told, htrail⟩ := Assembly.run_trail a.settings a.sink w.underTrace a.registry
    (.bool full.truth)
  exact ⟨calls, told, request_leaves_of_run hopen rfl htrail deliver p⟩

/-- What a request makes of a fresh promise, by the way its assembly ended. -/
def freshAnswer (deliver : Report → α) : Outcome Assembly → Promise α × Outcome Unit
  | .ok r => ({ Promise.new none none with
      claimed := true, future := .value (deliver ⟨r.text⟩) }, .ok ())
  | .error f =>
    if f.isCatchable then
      ({ Promise.new none none with claimed := true, future := .error f }, .ok ())
    else (.new none none, .error f)

/-- A fresh promise tells nobody, so it does not show under which trace it was resolved. -/
theorem answer_fresh (a : Aggregator) {w : World}
    (hlimit : a.records = true → w.metrics.limit ≤ Metrics.greatestLimit) (trace : TraceId)
    (full : Bool) (deliver : Report → α) (outcome : Outcome Assembly) :
    (a.answer w trace full deliver (.new none none) outcome).2 = freshAnswer deliver outcome := by
  cases outcome with
  | ok r =>
      obtain ⟨u, hanswer⟩ := answer_ok hlimit trace full deliver (.new none none) r
      rw [hanswer, Promise.setValue, Promise.resolve_of_pending rfl rfl]
      rfl
  | error f =>
      cases hcatch : f.isCatchable with
      | false => simp [answer, freshAnswer, hcatch]
      | true =>
          obtain ⟨u, hanswer⟩ := answer_error hlimit trace full deliver (.new none none) hcatch
          rw [hanswer, Promise.setError, Promise.resolve_of_pending rfl rfl]
          simp [freshAnswer, hcatch, Promise.settled, Reaction.outcome, Promise.new]

/-- Open aggregators with the same settings over the same registry answer a request alike in two
worlds that called the providers equally often, as long as both can count it: their assemblies end
alike, fresh promises become the same, the same calls are made, and the same faults are told. -/
theorem request_alike (hopen : a.closed = false) (hopen' : a'.closed = false)
    (hsettings : a'.settings = a.settings) (hregistry : a'.registry = a.registry) {w w' : World}
    (hlimit : a.records = true → w.metrics.limit ≤ Metrics.greatestLimit)
    (hlimit' : a'.records = true → w'.metrics.limit ≤ Metrics.greatestLimit)
    (hignores : ∀ e ∈ a.registry.entries, e.provider.IgnoresTrace)
    (hcounts : SameCounts a.registry.entries w.calls w'.calls) (deliver : Report → α)
    (full : Value) :
    a'.assembled w' full = a.assembled w full ∧
      (a'.request w' deliver full (.new none none)).2 =
        (a.request w deliver full (.new none none)).2 ∧
      ∃ calls told told',
        w.Leaves a.sink (a.request w deliver full (.new none none)).1 calls told ∧
        w'.Leaves a'.sink (a'.request w' deliver full (.new none none)).1 calls told' ∧
        told'.map Telling.loss = told.map Telling.loss := by
  have hunder : SameCounts a.registry.entries w.underTrace.calls w'.underTrace.calls := hcounts
  obtain ⟨houtcome, calls, told, told', htrail, htrail', hlosses⟩ :=
    Assembly.run_alike a.settings a.sink a'.sink (.bool full.truth) hignores hunder
  generalize hrun : Assembly.run a.settings a.sink w.underTrace a.registry
    (.bool full.truth) = ended at houtcome htrail
  generalize hrun' : Assembly.run a.settings a'.sink w'.underTrace a.registry
    (.bool full.truth) = ended' at houtcome htrail'
  obtain ⟨w₁, outcome⟩ := ended
  obtain ⟨w₁', outcome'⟩ := ended'
  cases houtcome
  rw [← hsettings, ← hregistry] at hrun'
  -- Both can still be counted after the assembly.
  have hcounted : a.records = true → w₁.metrics.limit ≤ Metrics.greatestLimit := by
    rw [htrail.follows.metrics.limit]
    exact hlimit
  have hcounted' : a'.records = true → w₁'.metrics.limit ≤ Metrics.greatestLimit := by
    rw [htrail'.follows.metrics.limit]
    exact hlimit'
  refine ⟨?_, ?_, calls, told, told', request_leaves_of_run hopen hrun htrail deliver _,
    request_leaves_of_run hopen' hrun' htrail' deliver _, hlosses⟩
  · rw [assembled, assembled, hrun, hrun']
  · rw [request_eq hopen hrun, request_eq hopen' hrun']
    exact (a'.answer_fresh hcounted' _ _ _ _).trans (a.answer_fresh hcounted _ _ _ _).symm

end Aggregator

end UsageReport
