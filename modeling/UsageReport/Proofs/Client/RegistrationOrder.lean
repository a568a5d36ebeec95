/-
The order of registration.  Subsystems that are registered in another order make the same registry,
as long as those without a place of their own in the report keep theirs.  So clients of one
configuration over the same subsystems go on alike: the same operations leave them with the same
registry, their providers were called equally often, and every request ends alike in both.
-/
import UsageReport.Proofs.Client.Lifecycle
import UsageReport.Proofs.Report.Parallel

namespace UsageReport

namespace Client

variable {c c' : Client}

/-- The second client has the subsystems of the first, in an order that differs at most in where
those with a place of their own in the report stand. -/
structure Reordered (c c' : Client) : Prop where
  perm : c.subsystems.Perm c'.subsystems
  others : c.names.filter (fun n => !canonicalTexts.contains n.points) =
    c'.names.filter fun n => !canonicalTexts.contains n.points

/-! ### One registry -/

theorem Reordered.orderNames_eq (h : Reordered c c') (hdistinct : c.names.Nodup) :
    orderNames (c.subsystems.map (·.1.points)) = orderNames (c'.subsystems.map (·.1.points)) := by
  have hpoints (c : Client) : c.subsystems.map (·.1.points) = c.names.map Name.points := by
    rw [names, List.map_map]
    rfl
  rw [hpoints, hpoints]
  apply orderNames_eq_of_perm
  · exact hdistinct.map Name.points_injective
  · exact (h.perm.map _).map _
  · rw [List.filter_map, List.filter_map]
    exact congrArg (List.map Name.points) h.others

theorem Reordered.ordered_eq (h : Reordered c c') (hdistinct : c.names.Nodup) :
    c'.ordered = c.ordered := by
  have hdistinct' : c'.names.Nodup := (h.perm.map Prod.fst).nodup_iff.mp hdistinct
  unfold ordered
  rw [h.orderNames_eq hdistinct]
  apply List.filterMap_congr
  intro points hpoints
  obtain ⟨s, hs, rfl⟩ := List.mem_map.mp (mem_orderNames.mp hpoints)
  rw [find?_subsystem hdistinct' hs, find?_subsystem hdistinct (h.perm.mem_iff.mpr hs)]

/-- The order of registration does not show in the registry, nor in what is wrong with it. -/
theorem Reordered.registry_eq (h : Reordered c c') (hdistinct : c.names.Nodup) :
    c'.registry = c.registry := by
  rw [registry, registry, h.ordered_eq hdistinct]

/-! ### Requests by the registry -/

/-- The aggregator that starting the client makes of a registry. -/
def aggregatorOver (c : Client) (r : Registry) : Aggregator :=
  { settings := c.config.settings, registry := r, sink := c.sink, host := some (some c.session)
    measured := true, running := true }

theorem launch_eq (c : Client) : c.launch = c.registry.map c.aggregatorOver := by
  unfold launch
  cases c.registry with
  | error f => rfl
  | ok r => rfl

/-- The entries of the registry are the subsystems. -/
theorem mem_of_registry (hdistinct : c.names.Nodup) {r : Registry} (hregistry : c.registry = .ok r)
    {e : Entry} (he : e ∈ r.entries) : (e.name, e.provider) ∈ c.subsystems := by
  rcases launch_cases hdistinct with ⟨s, -, -, hfail⟩ | ⟨-, a, hlaunch, hcarries⟩
  · rw [launch_eq, hregistry] at hfail
    cases hfail
  · rw [launch_eq, hregistry] at hlaunch
    cases hlaunch
    exact (hcarries.entries e).mp he

/-- The aggregator that the client holds, if any, is the one that starting it would make. -/
def Launched (c : Client) : Prop := ∀ a, c.aggregator = some a → c.launch = .ok a

theorem start_of_launched (h : c.Launched) :
    c.start = c.launch.map fun a => ({ c with aggregator := some a }, a) := by
  cases haggregator : c.aggregator with
  | none =>
      rw [start, haggregator]
      cases c.launch with
      | error f => rfl
      | ok a => rfl
  | some a =>
      have hsame : { c with aggregator := some a } = c := by rw [← haggregator]
      rw [h a haggregator, start, haggregator]
      exact congrArg (fun c => Except.ok (c, a)) hsame.symm

/-- How the assembly for a request ends, once the client is started for it. -/
def assembled (c : Client) (w : World) (full : Value) : Outcome Assembly := do
  let started ← c.start
  started.2.assembled w full

theorem assembled_of_launched (h : c.Launched) (w : World) (full : Value) :
    c.assembled w full = c.registry.bind fun r => (c.aggregatorOver r).assembled w full := by
  rw [assembled, start_of_launched h, launch_eq]
  cases c.registry with
  | error f => rfl
  | ok r => rfl

/-- A request fails with the registry, or is one to the aggregator over it. -/
theorem request_of_launched (h : c.Launched) (w : World) (full : Value) :
    (∃ f, c.registry = .error f ∧ c.request w full = ⟨c, w, .error f⟩) ∨
      ∃ r, c.registry = .ok r ∧ c.request w full =
        ⟨{ c with aggregator := some (c.aggregatorOver r) },
          ((c.aggregatorOver r).request w id full (.new none none)).1,
          ((c.aggregatorOver r).request w id full (.new none none)).2.2.map fun _ =>
            ((c.aggregatorOver r).request w id full (.new none none)).2.1⟩ := by
  unfold request
  rw [start_of_launched h, launch_eq]
  cases c.registry with
  | error f => exact .inl ⟨f, rfl, rfl⟩
  | ok r =>
      refine .inr ⟨r, rfl, ?_⟩
      simp only [Except.map]
      generalize (c.aggregatorOver r).request w id full (.new none none) = answered
      obtain ⟨u, p, f | ⟨⟩⟩ := answered
      · rfl
      · rfl

/-- A request changes the client at most in that it is started. -/
theorem request_client (h : c.Launched) (w : World) (full : Value) :
    ∃ held, (c.request w full).client = { c with aggregator := held } ∧
      { c with aggregator := held }.Launched := by
  rcases request_of_launched h w full with ⟨f, -, hrequest⟩ | ⟨r, hregistry, hrequest⟩
  · exact ⟨c.aggregator, congrArg Requested.client hrequest, h⟩
  · refine ⟨some (c.aggregatorOver r), congrArg Requested.client hrequest, fun a ha => ?_⟩
    cases ha
    exact (launch_eq _).trans (congrArg _ hregistry)

theorem request_leaves (h : c.Launched) (w : World) (full : Value) :
    ∃ calls told, w.Leaves c.sink (c.request w full).world calls told := by
  rcases request_of_launched h w full with ⟨f, -, hrequest⟩ | ⟨r, -, hrequest⟩
  · rw [hrequest]
    exact ⟨[], [], .refl c.sink w⟩
  · rw [hrequest]
    exact Aggregator.request_leaves (a := c.aggregatorOver r) rfl w id full _

/-! ### Clients that go on alike -/

/-- The providers of the client do not look at traces, and were called equally often in both
worlds. -/
structure Agrees (c : Client) (w w' : World) : Prop where
  ignores : ∀ s ∈ c.subsystems, s.2.IgnoresTrace
  counts : ∀ s ∈ c.subsystems, callCount w'.calls s.2.identity = callCount w.calls s.2.identity

/-- Requests can be counted in the world, if the client has them counted. -/
def Counts (c : Client) (w : World) : Prop :=
  c.config.settings.recordMetrics = true → w.metrics.limit ≤ Metrics.greatestLimit

/-- Clients with one registry answer a request alike. -/
theorem request_alike (hdistinct : c.names.Nodup) (h : c.Launched) (h' : c'.Launched)
    (hsettings : c'.config.settings = c.config.settings) (hregistry : c'.registry = c.registry)
    {w w' : World} (hagrees : c.Agrees w w') (hlimit : c.Counts w) (hlimit' : c'.Counts w')
    (full : Value) :
    c'.assembled w' full = c.assembled w full ∧
      (c'.request w' full).promise = (c.request w full).promise ∧
      ∃ calls told told', w.Leaves c.sink (c.request w full).world calls told ∧
        w'.Leaves c'.sink (c'.request w' full).world calls told' ∧
        told'.map Telling.loss = told.map Telling.loss := by
  rw [assembled_of_launched h, assembled_of_launched h', hregistry]
  rcases request_of_launched h w full with ⟨f, hr, hrequest⟩ | ⟨r, hr, hrequest⟩
  · rcases request_of_launched h' w' full with ⟨f', hr', hrequest'⟩ | ⟨r', hr', hrequest'⟩
    · rw [hregistry, hr] at hr'
      cases hr'
      rw [hr, hrequest, hrequest']
      exact ⟨rfl, rfl, [], [], [], .refl c.sink w, .refl c'.sink w', rfl⟩
    · rw [hregistry, hr] at hr'
      cases hr'
  · rcases request_of_launched h' w' full with ⟨f', hr', hrequest'⟩ | ⟨r', hr', hrequest'⟩
    · rw [hregistry, hr] at hr'
      cases hr'
    · rw [hregistry, hr] at hr'
      cases hr'
      rw [hr, hrequest, hrequest']
      have hopen : (c.aggregatorOver r).closed = false := rfl
      have hopen' : (c'.aggregatorOver r).closed = false := rfl
      obtain ⟨hassembled, hanswer, hleaves⟩ := Aggregator.request_alike hopen hopen' hsettings rfl
        hlimit hlimit' (fun e he => hagrees.ignores _ (mem_of_registry hdistinct hr he))
        (fun e he => hagrees.counts _ (mem_of_registry hdistinct hr he)) id full
      refine ⟨hassembled, ?_, hleaves⟩
      simp only [hanswer]

/-! ### Operations one after the other -/

/-- Whether the operation registers a subsystem. -/
def Operation.registers : Operation → Bool
  | .register _ _ => true
  | _ => false

namespace Scene

variable {s s' t : Scene}

/-- An operation that registers nothing changes the client in what it holds only. -/
theorem perform_client (h : s.client.Launched) {op : Operation} (hop : op.registers = false) :
    ∃ held, (s.perform op).1.client = { s.client with aggregator := held } ∧
      { s.client with aggregator := held }.Launched := by
  cases op with
  | register name subsystem => cases hop
  | start =>
      rw [perform, start_of_launched h]
      cases hlaunch : s.client.launch with
      | error f => exact ⟨s.client.aggregator, rfl, h⟩
      | ok a =>
          refine ⟨some a, rfl, fun b hb => ?_⟩
          cases hb
          exact hlaunch
  | close =>
      rw [perform, close]
      cases haggregator : s.client.aggregator with
      | none => exact ⟨s.client.aggregator, rfl, h⟩
      | some a =>
          cases htear : a.tearDown with
          | error f =>
              simp only [htear]
              exact ⟨s.client.aggregator, rfl, h⟩
          | ok torn =>
              simp only [htear]
              refine ⟨none, rfl, fun b hb => ?_⟩
              cases hb
  | request full => exact request_client h s.world full
  | report full => exact request_client h s.world full
  | currentState => exact ⟨s.client.aggregator, rfl, h⟩

/-- A registration changes the client in its subsystems only, while it holds nothing. -/
theorem perform_register_client (h : s.client.Launched) (name : Value) (subsystem : Provider) :
    ∃ subsystems, (s.perform (.register name subsystem)).1.client =
        { s.client with subsystems } ∧ { s.client with subsystems }.Launched := by
  rw [perform_register]
  rcases register_cases s.client name subsystem with
    ⟨-, hfail⟩ | ⟨-, -, ⟨-, shown, hfail⟩ | ⟨-, hfail⟩⟩ | ⟨-, n, -, -, hfail⟩ |
      ⟨hclosed, n, -, -, hok⟩
  · rw [hfail]
    exact ⟨s.client.subsystems, rfl, h⟩
  · rw [hfail]
    exact ⟨s.client.subsystems, rfl, h⟩
  · rw [hfail]
    exact ⟨s.client.subsystems, rfl, h⟩
  · rw [hfail]
    exact ⟨s.client.subsystems, rfl, h⟩
  · rw [hok]
    refine ⟨s.client.subsystems ++ [(n, subsystem)], rfl, fun a ha => ?_⟩
    rw [started_eq_false_iff] at hclosed
    exact absurd ha (by simp [hclosed])

/-- An operation asks for a report, or leaves the world as it is. -/
theorem perform_asks_or_rests (op : Operation) :
    (∃ full, ∀ s : Scene, (s.perform op).1.world = (s.client.request s.world full).world) ∨
      ∀ s : Scene, (s.perform op).1.world = s.world := by
  cases op with
  | request full | report full => exact .inl ⟨full, fun s => rfl⟩
  | currentState => exact .inr fun s => rfl
  | register | start | close =>
      refine .inr fun s => ?_
      rw [perform]
      split <;> rfl

/-- What no operation changes: the configuration, the sink, the limit of the metrics, and whether
the error log can be added to and the trace that is bound can be written.  An aggregator that is
held is the one that starting would make. -/
structure Keeps (s t : Scene) : Prop where
  config : t.client.config = s.client.config
  sink : t.client.sink = s.client.sink
  limit : t.world.metrics.limit = s.world.metrics.limit
  opens : ∀ log, s.client.sink = .log log →
    (t.world.files.Opens log.path ↔ s.world.files.Opens log.path)
  writable : t.world.traces.Writable ↔ s.world.traces.Writable
  launched : t.client.Launched

theorem Keeps.refl (h : s.client.Launched) : s.Keeps s := ⟨rfl, rfl, rfl, fun _ _ => .rfl, .rfl, h⟩

theorem Keeps.trans {u : Scene} (h : s.Keeps t) (h' : t.Keeps u) : s.Keeps u where
  config := h'.config.trans h.config
  sink := h'.sink.trans h.sink
  limit := h'.limit.trans h.limit
  opens := fun log hlog => (h'.opens log (h.sink.trans hlog)).trans (h.opens log hlog)
  writable := h'.writable.trans h.writable
  launched := h'.launched

theorem perform_keeps (h : s.client.Launched) (op : Operation) : s.Keeps (s.perform op).1 := by
  have hworld : ∃ calls told, s.world.Leaves s.client.sink (s.perform op).1.world calls told := by
    rcases perform_asks_or_rests op with ⟨full, hasks⟩ | hrests
    · rw [hasks s]
      exact request_leaves h s.world full
    · rw [hrests s]
      exact ⟨[], [], .refl _ _⟩
  obtain ⟨calls, told, hleaves⟩ := hworld
  have hopens (log : ErrorLog) (hlog : s.client.sink = .log log) :
      (s.perform op).1.world.files.Opens log.path ↔ s.world.files.Opens log.path := by
    rw [hlog] at hleaves
    exact hleaves.opens_iff
  cases hop : op.registers with
  | false =>
      obtain ⟨held, hclient, hlaunched⟩ := perform_client h hop
      rw [← hclient] at hlaunched
      exact ⟨by rw [hclient], by rw [hclient], hleaves.limit_eq, hopens, hleaves.writable_iff,
        hlaunched⟩
  | true =>
      cases op with
      | register name subsystem =>
          obtain ⟨subsystems, hclient, hlaunched⟩ := perform_register_client h name subsystem
          rw [← hclient] at hlaunched
          exact ⟨by rw [hclient], by rw [hclient], hleaves.limit_eq, hopens, hleaves.writable_iff,
        hlaunched⟩
      | start | close | request | report | currentState => cases hop

theorem run_keeps (h : s.client.Launched) (ops : List Operation) : s.Keeps (s.run ops) := by
  induction ops generalizing s with
  | nil => exact .refl h
  | cons op rest ih =>
      have hstep := perform_keeps h op
      exact hstep.trans (ih hstep.launched)

/-- The clients have the same registry and settings, hold nothing that starting would not make,
and requests find the providers in the same state and can be counted in both worlds. -/
structure Abreast (s s' : Scene) : Prop where
  distinct : s.client.names.Nodup
  launched : s.client.Launched
  launched' : s'.client.Launched
  settings : s'.client.config.settings = s.client.config.settings
  registry : s'.client.registry = s.client.registry
  agrees : s.client.Agrees s.world s'.world
  counted : s.client.Counts s.world
  counted' : s'.client.Counts s'.world

/-- Operations that register nothing are done side by side: they make the same calls. -/
theorem perform_abreast (h : s.Abreast s') {op : Operation} (hop : op.registers = false) :
    (s.perform op).1.Abreast (s'.perform op).1 := by
  have hworlds : ∃ calls told told',
      s.world.Leaves s.client.sink (s.perform op).1.world calls told ∧
        s'.world.Leaves s'.client.sink (s'.perform op).1.world calls told' := by
    rcases perform_asks_or_rests op with ⟨full, hasks⟩ | hrests
    · obtain ⟨-, -, calls, told, told', hleaves, hleaves', -⟩ := request_alike h.distinct h.launched
        h.launched' h.settings h.registry h.agrees h.counted h.counted' full
      rw [hasks s, hasks s']
      exact ⟨calls, told, told', hleaves, hleaves'⟩
    · rw [hrests s, hrests s']
      exact ⟨[], [], [], .refl _ _, .refl _ _⟩
  obtain ⟨calls, told, told', hleaves, hleaves'⟩ := hworlds
  obtain ⟨held, hclient, hlaunched⟩ := perform_client h.launched hop
  obtain ⟨held', hclient', hlaunched'⟩ := perform_client h.launched' hop
  constructor
  case distinct =>
    rw [hclient]
    exact h.distinct
  case launched =>
    rw [hclient]
    exact hlaunched
  case launched' =>
    rw [hclient']
    exact hlaunched'
  case settings =>
    rw [hclient, hclient']
    exact h.settings
  case registry =>
    rw [hclient, hclient']
    exact h.registry
  case agrees =>
    rw [hclient]
    refine ⟨h.agrees.ignores, fun x hx => ?_⟩
    rw [hleaves.calls_eq, hleaves'.calls_eq, callCount_append, callCount_append,
      h.agrees.counts x hx]
  case counted =>
    rw [hclient]
    intro hrecords
    rw [hleaves.limit_eq]
    exact h.counted hrecords
  case counted' =>
    rw [hclient']
    intro hrecords
    rw [hleaves'.limit_eq]
    exact h.counted' hrecords

theorem run_abreast (h : s.Abreast s') {ops : List Operation}
    (hops : ∀ op ∈ ops, op.registers = false) : (s.run ops).Abreast (s'.run ops) := by
  induction ops generalizing s s' with
  | nil => exact h
  | cons op rest ih =>
      exact ih (perform_abreast h (hops op List.mem_cons_self))
        fun other hother => hops other (List.mem_cons_of_mem _ hother)

/-! ### Lives -/

/-- The scene is what some operations left of a new client. -/
def Lived (config : ConfigFile) (sink : Sink) (world : World) (s : Scene) : Prop :=
  ∃ session life, s = run ⟨.new session config sink, world⟩ life

section Lives

variable {config : ConfigFile} {sink sink' : Sink} {world world' : World}

theorem Lived.sound (h : s.Lived config sink world) : s.client.Sound := by
  obtain ⟨session, life, rfl⟩ := h
  exact run_sound (new_sound session config sink) life

theorem Lived.keeps (h : s.Lived config sink world) :
    ∃ session, Keeps ⟨.new session config sink, world⟩ s := by
  obtain ⟨session, life, rfl⟩ := h
  refine ⟨session, run_keeps (fun a ha => ?_) life⟩
  cases ha

/-- After any two lives of clients of one configuration that registered the same subsystems, in
orders that differ at most for those with a place of their own, the clients stand abreast. -/
theorem abreast_of_reordered (h : s.Lived config sink world) (h' : s'.Lived config sink' world')
    (hreordered : s.client.Reordered s'.client) (hagrees : s.client.Agrees s.world s'.world)
    (hlimit : config.settings.recordMetrics = true → world.metrics.limit ≤ Metrics.greatestLimit)
    (hlimit' : config.settings.recordMetrics = true →
      world'.metrics.limit ≤ Metrics.greatestLimit) : s.Abreast s' := by
  obtain ⟨session, hkeeps⟩ := h.keeps
  obtain ⟨session', hkeeps'⟩ := h'.keeps
  constructor
  case distinct => exact h.sound.distinct
  case launched => exact hkeeps.launched
  case launched' => exact hkeeps'.launched
  case settings => rw [hkeeps.config, hkeeps'.config]; rfl
  case registry => exact hreordered.registry_eq h.sound.distinct
  case agrees => exact hagrees
  case counted =>
    unfold Counts
    rw [hkeeps.config, hkeeps.limit]
    exact hlimit
  case counted' =>
    unfold Counts
    rw [hkeeps'.config, hkeeps'.limit]
    exact hlimit'

/-- The order of registration does not show in what clients do.  Take any two clients of one
configuration after any lives, with the same subsystems, of which those without a place of their
own were registered in the same order, and whose providers do not look at traces and were called
equally often.  Whatever is then done with both, other than registering: a request gives the same
report or the same error in both, of the same faults, after the same calls in the same order.  If
both tell an error log that shows the same and can be added to, or cannot, in both worlds, under
traces that can be written, or cannot, in both, these get the same rows up to their stamps.  The
bound on the metrics is the one under which histograms can be made; all limits that settings allow
are below it. -/
theorem requests_ignore_registration_order (h : s.Lived config sink world)
    (h' : s'.Lived config sink' world') (hreordered : s.client.Reordered s'.client)
    (hagrees : s.client.Agrees s.world s'.world)
    (hlimit : config.settings.recordMetrics = true → world.metrics.limit ≤ Metrics.greatestLimit)
    (hlimit' : config.settings.recordMetrics = true →
      world'.metrics.limit ≤ Metrics.greatestLimit)
    (ops : List Operation) (hops : ∀ op ∈ ops, op.registers = false) (full : Value) :
    let t := s.run ops
    let t' := s'.run ops
    let answered := t.client.request t.world full
    let answered' := t'.client.request t'.world full
    answered'.report = answered.report ∧
      t'.client.assembled t'.world full = t.client.assembled t.world full ∧
      (∃ calls, answered.world.calls = t.world.calls ++ calls ∧
        answered'.world.calls = t'.world.calls ++ calls) ∧
      ∀ log log', sink = .log log → sink' = .log log' → log'.tracebacks = log.tracebacks →
        (world.files.Opens log.path ↔ world'.files.Opens log'.path) →
        (world.traces.Writable ↔ world'.traces.Writable) →
        ∃ rows rows' : List String,
          answered.world.files.bytesAt log.path = t.world.files.bytesAt log.path ++
            rows.flatMap (fun row => (row ++ "\n").toUTF8.toList) ∧
          answered'.world.files.bytesAt log'.path = t'.world.files.bytesAt log'.path ++
            rows'.flatMap (fun row => (row ++ "\n").toUTF8.toList) ∧
          List.Forall₂ ErrorLog.SameButStamps rows rows' := by
  intro t t' answered answered'
  have habreast : t.Abreast t' :=
    run_abreast (abreast_of_reordered h h' hreordered hagrees hlimit hlimit') hops
  obtain ⟨hassembled, hpromise, calls, told, told', hleaves, hleaves', hlosses⟩ := request_alike
    habreast.distinct habreast.launched habreast.launched' habreast.settings habreast.registry
    habreast.agrees habreast.counted habreast.counted' full
  refine ⟨?_, hassembled, ⟨calls, hleaves.calls_eq, hleaves'.calls_eq⟩, ?_⟩
  · exact congrArg (· >>= Promise.result) hpromise
  · intro log log' hlog hlog' htracebacks hopens hwritable
    obtain ⟨session, hkeeps⟩ := h.keeps
    obtain ⟨session', hkeeps'⟩ := h'.keeps
    have hkept := hkeeps.trans (run_keeps hkeeps.launched ops)
    have hkept' := hkeeps'.trans (run_keeps hkeeps'.launched ops)
    rw [hkept.sink.trans hlog] at hleaves
    rw [hkept'.sink.trans hlog'] at hleaves'
    refine hleaves.exists_rows hleaves' hlosses htracebacks ?_ ?_
    · exact (hkept.opens log hlog).trans (hopens.trans (hkept'.opens log' hlog').symm)
    · exact hkept.writable.trans (hwritable.trans hkept'.writable.symm)

end Lives

/-- A provider that always fails, in the place of its registration. -/
def zoo : Provider := scripted 0 .plain [.raise (.raised "ValueError" []) none]

/-- A provider with a place of its own. -/
def fileManager : Provider :=
  scripted 1 .takesFull [.emit (.text "\"files\":"), .emit (.text "2")]

def zooFirst : Scene :=
  run ⟨.new {} {} (.log (errorLog {})), .fresh⟩
    [.register (.text "zoo") zoo, .register (.text "file_manager_") fileManager]

/-- The same subsystems in the other order, in another session and at another time. -/
def zooLast : Scene :=
  run ⟨.new ⟨.bool true⟩ {} (.log (errorLog {})), { World.fresh with clock := ⟨"noon", 0.0⟩ }⟩
    [.register (.text "file_manager_") fileManager, .register (.text "zoo") zoo]

theorem requests_ignore_registration_order_swapped :
    zooFirst.Lived {} (.log (errorLog {})) .fresh ∧
      zooLast.Lived {} (.log (errorLog {})) { World.fresh with clock := ⟨"noon", 0.0⟩ } ∧
      zooFirst.client.Reordered zooLast.client ∧
      zooFirst.client.Agrees zooFirst.world zooLast.world ∧
      World.fresh.metrics.limit ≤ Metrics.greatestLimit ∧
      Operation.registers (.request (.bool true)) = false ∧
      ((zooLast.run [.request (.bool true)]).client.request
          (zooLast.run [.request (.bool true)]).world (.bool false)).report.toOption.map
            Report.debug =
        some (Text.points ("\x7b\"memory_stats\":\x7b\"file_manager_\":\x7b\"files\":2\x7d," ++
          "\"zoo\":\x7b\"error\":\"provider_fault\"\x7d\x7d\x7d")) := by
  have hlived : zooFirst.Lived {} (.log (errorLog {})) .fresh := ⟨_, _, rfl⟩
  have hlived' : zooLast.Lived {} (.log (errorLog {}))
      { World.fresh with clock := ⟨"noon", 0.0⟩ } := ⟨_, _, rfl⟩
  have hsubsystems : zooFirst.client.subsystems =
      [(⟨Text.points "zoo", by decide, by decide⟩, zoo),
        (⟨Text.points "file_manager_", by decide, by decide⟩, fileManager)] := rfl
  have hsubsystems' : zooLast.client.subsystems =
      [(⟨Text.points "file_manager_", by decide, by decide⟩, fileManager),
        (⟨Text.points "zoo", by decide, by decide⟩, zoo)] := rfl
  have hreordered : zooFirst.client.Reordered zooLast.client := by
    refine ⟨?_, ?_⟩
    · rw [hsubsystems, hsubsystems']
      exact .swap _ _ _
    · have hknown : "file_manager_" ∈ canonicalOrder := by decide +kernel
      have hunknown : "zoo" ∉ canonicalOrder := by decide +kernel
      simp [names, hsubsystems, hsubsystems', points_mem_canonicalTexts, hknown, hunknown]
  have hagrees : zooFirst.client.Agrees zooFirst.world zooLast.world := by
    refine ⟨?_, fun x _ => rfl⟩
    rw [hsubsystems]
    intro x hx call trace
    simp only [List.mem_cons, List.not_mem_nil, or_false] at hx
    rcases hx with rfl | rfl <;> rfl
  have hlimit : World.fresh.metrics.limit ≤ Metrics.greatestLimit := by decide
  have hregisters : Operation.registers (.request (.bool true)) = false := rfl
  refine ⟨hlived, hlived', hreordered, hagrees, hlimit, hregisters, ?_⟩
  have hops : ∀ op ∈ [Operation.request (.bool true)], op.registers = false := by
    intro op hop
    rw [List.mem_singleton.mp hop]
    exact hregisters
  have hreport := (requests_ignore_registration_order hlived hlived' hreordered hagrees
    (fun _ => hlimit) (fun _ => hlimit) [.request (.bool true)] hops (.bool false)).1
  rw [hreport]
  decide +kernel

end Scene

end Client

end UsageReport
