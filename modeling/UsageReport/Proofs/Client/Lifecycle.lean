/-
The life of a client.  While it is started it holds one open aggregator over its subsystems in
report order, and nothing is registered.  Starting fails exactly if a subsystem cannot be called,
and then nothing happened; requests start a client that is not started.  All this holds after
any operations, since every operation keeps what a sound client is.
-/
import UsageReport.Client.Operation
import UsageReport.Proofs.Outcome
import UsageReport.Proofs.Provider.Order
import UsageReport.Proofs.Provider.Registry
import UsageReport.Proofs.Report.Ending

namespace UsageReport

namespace Client

variable {c : Client}

/-- The names of the subsystems, in the order of registration. -/
def names (c : Client) : List Name := c.subsystems.map (·.1)

/-- The aggregator is open and running, over the subsystems of the client in report order. -/
structure Carries (c : Client) (a : Aggregator) : Prop where
  isOpen : a.closed = false
  running : a.running = true
  order : a.registry.names.map Name.points = orderNames (c.names.map Name.points)
  entries : ∀ e, e ∈ a.registry.entries ↔ (e.name, e.provider) ∈ c.subsystems

/-- No name is registered twice, and the client carries the aggregator that it holds. -/
structure Sound (c : Client) : Prop where
  distinct : c.names.Nodup
  held : ∀ a, c.aggregator = some a → c.Carries a

theorem new_sound (session : Session) (config : ConfigFile) (sink : Sink) :
    (new session config sink).Sound where
  distinct := List.nodup_nil
  held := by
    intro a ha
    cases ha

/-! ### The subsystems in report order -/

/-- The subsystem of a name is found again under it. -/
theorem find?_subsystem (hdistinct : c.names.Nodup) {s : Name × Provider}
    (hs : s ∈ c.subsystems) : c.subsystems.find? (·.1.points == s.1.points) = some s := by
  cases hfind : c.subsystems.find? (·.1.points == s.1.points) with
  | none => simpa using List.find?_eq_none.mp hfind s hs
  | some found =>
      have hname : found.1 = s.1 := Name.points_injective (by simpa using List.find?_some hfind)
      have hfound := List.mem_of_find?_eq_some hfind
      rw [List.inj_on_of_nodup_map hdistinct hfound hs hname]

theorem mem_ordered (hdistinct : c.names.Nodup) {s : Name × Provider} :
    s ∈ c.ordered ↔ s ∈ c.subsystems := by
  unfold ordered
  rw [List.mem_filterMap]
  constructor
  · rintro ⟨points, -, hfind⟩
    exact List.mem_of_find?_eq_some hfind
  · intro hs
    refine ⟨s.1.points, mem_orderNames.mpr ?_, find?_subsystem hdistinct hs⟩
    exact List.mem_map.mpr ⟨s, hs, rfl⟩

/-- The subsystems that are found under some of their names have these names. -/
theorem map_points_find? {given : List (List Text.CodePoint)}
    (hgiven : ∀ n ∈ given, n ∈ c.names.map Name.points) :
    (given.filterMap fun n => c.subsystems.find? (·.1.points == n)).map (·.1.points) = given := by
  induction given with
  | nil => rfl
  | cons first rest ih =>
      have hrest := ih fun n hn => hgiven n (List.mem_cons_of_mem _ hn)
      have hfirst := hgiven first List.mem_cons_self
      rw [names, List.map_map, List.mem_map] at hfirst
      obtain ⟨s, hs, rfl⟩ := hfirst
      cases hfind : c.subsystems.find? (·.1.points == s.1.points) with
      | none => simpa using List.find?_eq_none.mp hfind s hs
      | some found =>
          have hpoints : found.1.points = s.1.points := by simpa using List.find?_some hfind
          rw [Function.comp_apply, List.filterMap_cons, hfind, List.map_cons, hrest, hpoints]

theorem ordered_points (c : Client) :
    c.ordered.map (·.1.points) = orderNames (c.names.map Name.points) := by
  unfold ordered names
  rw [List.map_map]
  apply map_points_find?
  intro n hn
  simpa [names] using mem_orderNames.mp hn

theorem ordered_names_nodup (c : Client) : (c.ordered.map (·.1)).Nodup := by
  apply List.Nodup.of_map Name.points
  rw [List.map_map]
  exact (c.ordered_points ▸ orderNames_nodup _ : (c.ordered.map (·.1.points)).Nodup)

/-! ### Starting -/

/-- A client can be started exactly if all its subsystems can be called. -/
theorem launch_cases (hdistinct : c.names.Nodup) :
    (∃ s ∈ c.subsystems, s.2.isCallable = false ∧
        c.launch = fail (.noStatistics s.1.value.describe)) ∨
      ((∀ s ∈ c.subsystems, s.2.isCallable = true) ∧ ∃ a, c.launch = .ok a ∧ c.Carries a) := by
  rcases Registry.ofList_named c.ordered_names_nodup with
    ⟨before, s, after, hsplit, -, hs, hregistry⟩ | ⟨hcall, r, hregistry, hentries⟩
  · have hmem : s ∈ c.subsystems := (mem_ordered hdistinct).mp (by simp [hsplit])
    refine .inl ⟨s, hmem, hs, ?_⟩
    simp only [launch, registry, hregistry]
    rfl
  · refine .inr ⟨fun s hs => hcall s ((mem_ordered hdistinct).mpr hs), ?_⟩
    refine ⟨{ settings := c.config.settings, registry := r, sink := c.sink
              host := some (some c.session), measured := true, running := true }, ?_, ?_⟩
    · simp only [launch, registry, hregistry]
      rfl
    · refine ⟨rfl, rfl, ?_, fun e => ?_⟩
      · rw [← ordered_points, Registry.names, hentries]
        simp
      · rw [hentries, ← mem_ordered hdistinct]
        simp only [List.mem_map, Prod.exists]
        constructor
        · rintro ⟨name, p, hmem, rfl⟩
          exact hmem
        · intro hmem
          exact ⟨e.name, e.provider, hmem, rfl⟩

/-- Starting gives the aggregator that is held, or holds a new one, or fails. -/
theorem start_cases (h : c.Sound) :
    (∃ a, c.aggregator = some a ∧ c.start = .ok (c, a)) ∨
    (c.aggregator = none ∧ (∀ s ∈ c.subsystems, s.2.isCallable = true) ∧
      ∃ a, c.Carries a ∧ c.start = .ok ({ c with aggregator := some a }, a)) ∨
    (c.aggregator = none ∧ ∃ s ∈ c.subsystems, s.2.isCallable = false ∧
      c.start = fail (.noStatistics s.1.value.describe)) := by
  cases haggregator : c.aggregator with
  | some a => exact .inl ⟨a, rfl, by simp [start, haggregator]⟩
  | none =>
      rcases launch_cases h.distinct with ⟨s, hs, hcall, hlaunch⟩ | ⟨hcall, a, hlaunch, hcarries⟩
      · refine .inr (.inr ⟨rfl, s, hs, hcall, ?_⟩)
        simp [start, haggregator, hlaunch, fail]
      · refine .inr (.inl ⟨rfl, hcall, a, hcarries, ?_⟩)
        simp [start, haggregator, hlaunch]

/-- Whatever starting leaves behind is sound. -/
theorem Sound.start (h : c.Sound) {c' : Client} {a : Aggregator} (hstart : c.start = .ok (c', a)) :
    c'.Sound ∧ c'.aggregator = some a ∧ c'.subsystems = c.subsystems := by
  rcases start_cases h with
    ⟨held, haggregator, hheld⟩ | ⟨-, -, new, hcarries, hnew⟩ | ⟨-, s, -, -, hfail⟩
  · rw [hheld] at hstart
    cases hstart
    exact ⟨h, haggregator, rfl⟩
  · rw [hnew] at hstart
    cases hstart
    refine ⟨⟨h.distinct, fun a ha => ?_⟩, rfl, rfl⟩
    cases ha
    exact ⟨hcarries.isOpen, hcarries.running, hcarries.order, hcarries.entries⟩
  · rw [hfail] at hstart
    cases hstart

/-- Starting raises only that a subsystem cannot be called. -/
theorem className_of_start (h : c.Sound) {f : Fault} (hf : c.start = .error f) :
    f.className = "TypeError" := by
  rcases start_cases h with
    ⟨a, -, hok⟩ | ⟨-, -, a, -, hok⟩ | ⟨-, s, -, -, hfail⟩
  · rw [hok] at hf
    cases hf
  · rw [hok] at hf
    cases hf
  · rw [hfail] at hf
    cases hf
    rfl

/-- A request ends like the start it makes, or is made to the aggregator that is held then: it
leaves the client as started, and raises nothing but interruptions, or what cannot be counted. -/
theorem request_cases (h : c.Sound) (w : World) (full : Value) :
    (∃ f, c.start = .error f ∧ c.request w full = ⟨c, w, .error f⟩) ∨
      ∃ c' a w' promise, c.start = .ok (c', a) ∧ c.request w full = ⟨c', w', promise⟩ ∧
        ((∃ f, promise = .error f ∧ (f.isCatchable = false ∨ f = .failed .limitTooLarge)) ∨
          ∃ p, promise = .ok p ∧ ((∃ r, p.result = .ok r) ∨
            ∃ provider cause, p.result = .error (Assembly.abortion provider cause))) := by
  cases hstart : c.start with
  | error f => exact .inl ⟨f, rfl, by simp [request, hstart]⟩
  | ok started =>
      obtain ⟨c', a⟩ := started
      obtain ⟨hsound, haggregator, -⟩ := h.start hstart
      obtain ⟨w', p, outcome, hrequest, hends⟩ := Aggregator.request_fresh_cases
        (hsound.held a haggregator).isOpen w id full
      rcases hends with ⟨f, rfl, hf⟩ | ⟨rfl, hresult⟩
      · refine .inr ⟨c', a, w', .error f, rfl, ?_, .inl ⟨f, rfl, hf⟩⟩
        simp [request, hstart, hrequest]
      · refine .inr ⟨c', a, w', .ok p, rfl, ?_, .inr ⟨p, rfl, hresult⟩⟩
        simp [request, hstart, hrequest]

/-- A client that can be closed is closed; it holds no aggregator afterwards. -/
theorem close_eq (h : c.Sound) : c.close = .ok { c with aggregator := none } := by
  cases haggregator : c.aggregator with
  | none =>
      obtain ⟨session, config, sink, subsystems, aggregator⟩ := c
      cases haggregator
      rfl
  | some a =>
      have hopen := (h.held a haggregator).isOpen
      simp [close, haggregator, Aggregator.tearDown, Aggregator.ensureOpen, hopen]

/-- There is never anything to say about the current state. -/
theorem currentState_eq (h : c.Sound) : c.currentState = .ok [] := by
  cases haggregator : c.aggregator with
  | none => simp [currentState, haggregator]
  | some a =>
      have hopen := (h.held a haggregator).isOpen
      simp [currentState, haggregator, Aggregator.currentState, Aggregator.ensureOpen, hopen]

/-! ### Registration -/

theorem register_of_named (hclosed : c.started = false) {v : Value} {n : Name}
    (hname : validateName v = .ok n) (p : Provider) :
    c.register v p = if n ∈ c.names then .error (duplicateName n)
      else .ok { c with subsystems := c.subsystems ++ [(n, p)] } := by
  simp only [register, hclosed, hname, bind, Except.bind, names, List.contains_iff_mem,
    Bool.false_eq_true, if_false]
  rfl

/-- How a registration ends: it is refused because the client is started, because of the name, or
because the name is taken, or the subsystem goes last.  A name that is none and has no text fails
when the refusal is to tell it. -/
theorem register_cases (c : Client) (v : Value) (p : Provider) :
    (c.started = true ∧ c.register v p = fail .alreadyStarted) ∨
    (c.started = false ∧ (∀ n : Name, v.points? ≠ some n.points) ∧
      (v.hasText = true ∧ (∃ shown, c.register v p = .error (invalidName shown)) ∨
        v.hasText = false ∧ c.register v p = fail .tooLongToWrite)) ∨
    (c.started = false ∧ ∃ n : Name, v.points? = some n.points ∧ n ∈ c.names ∧
      c.register v p = .error (duplicateName n)) ∨
    (c.started = false ∧ ∃ n : Name, v.points? = some n.points ∧ n ∉ c.names ∧
      c.register v p = .ok { c with subsystems := c.subsystems ++ [(n, p)] }) := by
  by_cases hstarted : c.started = true
  · exact .inl ⟨hstarted, by simp [register, hstarted]⟩
  · have hclosed : c.started = false := Bool.eq_false_iff.mpr hstarted
    have hrefused {f : Fault} (hname : validateName v = .error f) : c.register v p = .error f := by
      simp [register, hclosed, hname, bind, Except.bind]
    rcases validateName_cases v with ⟨hnone, hname⟩ | ⟨n, hpoints, hname⟩
    · refine .inr (.inl ⟨hclosed, hnone, ?_⟩)
      rcases hname with ⟨htext, shown, hname⟩ | ⟨hlong, hname⟩
      · exact .inl ⟨htext, shown, hrefused hname⟩
      · exact .inr ⟨hlong, hrefused hname⟩
    · have hregister := register_of_named hclosed hname p
      by_cases htaken : n ∈ c.names
      · exact .inr (.inr (.inl ⟨hclosed, n, hpoints, htaken, hregister.trans (if_pos htaken)⟩))
      · exact .inr (.inr (.inr ⟨hclosed, n, hpoints, htaken, hregister.trans (if_neg htaken)⟩))

theorem started_eq_false_iff : c.started = false ↔ c.aggregator = none := by
  simp [started]

/-- A new name is registered last; nothing else changes. -/
theorem Sound.register (h : c.Sound) {v : Value} {p : Provider} {c' : Client}
    (hregister : c.register v p = .ok c') : c'.Sound := by
  rcases register_cases c v p with
    ⟨-, hfail⟩ | ⟨-, -, ⟨-, shown, hfail⟩ | ⟨-, hfail⟩⟩ | ⟨-, n, -, -, hfail⟩ |
      ⟨hclosed, n, -, hnew, hok⟩
  · rw [hfail] at hregister
    cases hregister
  · rw [hfail] at hregister
    cases hregister
  · rw [hfail] at hregister
    cases hregister
  · rw [hfail] at hregister
    cases hregister
  · rw [hok] at hregister
    cases hregister
    constructor
    · rw [names, List.map_append, List.map_singleton, List.nodup_append]
      refine ⟨h.distinct, List.nodup_singleton n, fun old hold name hname heq => ?_⟩
      have hsame : old = n := heq.trans (List.mem_singleton.mp hname)
      exact hnew (hsame ▸ hold)
    · intro a ha
      rw [started_eq_false_iff] at hclosed
      exact absurd ha (by simp [hclosed])

namespace Scene

variable {s : Scene}

/-! ### Operations one after the other -/

/-- Every operation leaves a sound client behind. -/
theorem perform_sound (h : s.client.Sound) (op : Operation) : (s.perform op).1.client.Sound := by
  have hrequested (full : Value) : (s.client.request s.world full).client.Sound := by
    rcases request_cases h s.world full with
      ⟨f, -, hrequest⟩ | ⟨c', a, w', promise, hstart, hrequest, -⟩
    · rw [hrequest]
      exact h
    · rw [hrequest]
      exact (h.start hstart).1
  cases op with
  | register name subsystem =>
      simp only [perform]
      split
      · next c' hregister => exact h.register hregister
      · exact h
  | start =>
      simp only [perform]
      split
      · next c' a hstart => exact (h.start hstart).1
      · exact h
  | close =>
      simp only [perform, close_eq h]
      refine ⟨h.distinct, fun a ha => ?_⟩
      cases ha
  | request full => exact hrequested full
  | report full => exact hrequested full
  | currentState => exact h

/-- Any operations leave a sound client behind. -/
theorem run_sound (h : s.client.Sound) (ops : List Operation) : (s.run ops).client.Sound := by
  induction ops generalizing s with
  | nil => exact h
  | cons op rest ih => exact ih (perform_sound h op)

/-- As long as a client is started, only closing changes it. -/
theorem perform_client_of_started (h : s.client.Sound) {a : Aggregator}
    (ha : s.client.aggregator = some a) {op : Operation} (hop : op ≠ .close) :
    (s.perform op).1.client = s.client := by
  have hstart : s.client.start = .ok (s.client, a) := by simp [Client.start, ha]
  have hrequested (full : Value) : (s.client.request s.world full).client = s.client := by
    rcases request_cases h s.world full with
      ⟨f, hfail, -⟩ | ⟨c', a', w', promise, hstart', hrequest, -⟩
    · rw [hstart] at hfail
      cases hfail
    · rw [hstart] at hstart'
      cases hstart'
      rw [hrequest]
  cases op with
  | register name subsystem =>
      have hstarted : s.client.started = true := by simp [started, ha]
      have hrefused : s.client.register name subsystem = fail .alreadyStarted := by
        simp [Client.register, hstarted]
      simp only [perform, hrefused, fail]
  | start => simp only [perform, hstart]
  | close => exact absurd rfl hop
  | request full => exact hrequested full
  | report full => exact hrequested full
  | currentState => rfl

/-- A client that is started stays as it is until it is closed. -/
theorem run_client_of_started (h : s.client.Sound) {a : Aggregator}
    (ha : s.client.aggregator = some a) {ops : List Operation} (hops : .close ∉ ops) :
    (s.run ops).client = s.client := by
  induction ops generalizing s with
  | nil => rfl
  | cons op rest ih =>
      rw [List.mem_cons, not_or] at hops
      have hkept := perform_client_of_started h ha (Ne.symm hops.1)
      exact (ih (hkept ▸ h) (hkept ▸ ha) hops.2).trans hkept

/-- The classes of what is raised where nothing is registered: a subsystem cannot be called,
requests cannot be counted, a provider failed, or the program was interrupted. -/
def raisable : List String :=
  ["TypeError", "OverflowError"] ++ Assembly.abortionClasses ++ Fault.interruptions

/-- The classes of the refusals of a registration, and of the failure to tell a name in one. -/
def refusals : List String :=
  ["RuntimeError", "InvalidProviderNameError", "DuplicateProviderError", "ValueError"]

/-- A request raises only what is of these classes, whether its result is taken or not. -/
theorem className_of_request (h : s.client.Sound) (full : Value) {f : Fault}
    (hf : (s.client.request s.world full).promise = .error f ∨
      (s.client.request s.world full).report = .error f) : f.className ∈ raisable := by
  rcases request_cases h s.world full with
    ⟨f', hstart, hrequest⟩ | ⟨c', a, w', promise, -, hrequest, hends⟩
  · have hsame : f' = f := by simpa [hrequest, Requested.report, bind, Except.bind] using hf
    rw [← hsame, className_of_start h hstart]
    exact List.mem_cons_self
  · rw [hrequest] at hf
    rcases hends with ⟨f', rfl, hf'⟩ | ⟨p, rfl, hresult⟩
    · have hsame : f' = f := by simpa [Requested.report, bind, Except.bind] using hf
      rw [← hsame]
      rcases hf' with hcatch | rfl
      · exact List.mem_append_right _ (Fault.className_of_uncatchable hcatch)
      · simp [raisable, Fault.className, Failure.className]
    · rcases hresult with ⟨r, hr⟩ | ⟨provider, cause, hr⟩
      · simp [Requested.report, bind, Except.bind, hr] at hf
      · have hsame : Assembly.abortion provider cause = f := by
          simpa [Requested.report, bind, Except.bind, hr] using hf
        rw [← hsame]
        exact List.mem_append_left _ (List.mem_append_right _
          (Assembly.className_abortion_mem provider cause))

/-- What an operation raises is raised by a registration, or is of few classes. -/
theorem className_of_perform (h : s.client.Sound) {op : Operation} {f : Fault}
    (hf : (s.perform op).2 = .error f) :
    (∃ name subsystem, op = .register name subsystem ∧ f.className ∈ refusals) ∨
      f.className ∈ raisable := by
  cases op with
  | register name subsystem =>
      refine .inl ⟨name, subsystem, rfl, ?_⟩
      rcases register_cases s.client name subsystem with
        ⟨-, hfail⟩ | ⟨-, -, ⟨-, shown, hfail⟩ | ⟨-, hfail⟩⟩ | ⟨-, n, -, -, hfail⟩ |
          ⟨-, n, -, -, hok⟩
      · rw [perform, hfail] at hf
        cases hf
        exact (by decide : "RuntimeError" ∈ refusals)
      · rw [perform, hfail] at hf
        cases hf
        exact (by decide : "InvalidProviderNameError" ∈ refusals)
      · rw [perform, hfail] at hf
        cases hf
        exact (by decide : "ValueError" ∈ refusals)
      · rw [perform, hfail] at hf
        cases hf
        exact (by decide : "DuplicateProviderError" ∈ refusals)
      · rw [perform, hok] at hf
        cases hf
  | start =>
      right
      cases hstart : s.client.start with
      | ok started =>
          rw [perform, hstart] at hf
          cases hf
      | error f' =>
          rw [perform, hstart] at hf
          cases hf
          rw [className_of_start h hstart]
          exact List.mem_cons_self
  | close =>
      rw [perform, close_eq h] at hf
      cases hf
  | request full =>
      right
      apply className_of_request h full
      left
      exact eq_error_of_map_eq_error hf
  | report full =>
      right
      apply className_of_request h full
      right
      exact eq_error_of_map_eq_error hf
  | currentState =>
      rw [perform, currentState_eq h] at hf
      cases hf

/-- Requests start a client like starting it does; they fail with it, and then nothing happened. -/
theorem perform_request (h : s.client.Sound) (full : Value) :
    (s.perform (.request full)).1.client = (s.perform .start).1.client ∧
      (s.perform (.report full)).1.client = (s.perform .start).1.client ∧
      ∀ f, (s.perform .start).2 = .error f →
        s.perform (.request full) = (s, .error f) ∧ s.perform (.report full) = (s, .error f) := by
  rcases request_cases h s.world full with
    ⟨f, hstart, hrequest⟩ | ⟨c', a, w', promise, hstart, hrequest, -⟩
  · refine ⟨by simp only [perform, hstart, hrequest], by simp only [perform, hstart, hrequest], ?_⟩
    intro f' hf
    simp only [perform, hstart] at hf
    cases hf
    simp only [perform, hrequest, Requested.report]
    exact ⟨rfl, rfl⟩
  · refine ⟨by simp only [perform, hstart, hrequest], by simp only [perform, hstart, hrequest], ?_⟩
    intro f hf
    simp only [perform, hstart] at hf
    cases hf

theorem perform_close (h : s.client.Sound) :
    s.perform .close =
      ({ s with client := { s.client with aggregator := none } }, .ok .nothing) := by
  simp only [perform, close_eq h]

/-- How a client stands, and what every operation does next. -/
structure Orderly (s : Scene) : Prop where
  /-- It holds no aggregator, or an open and running one for exactly its subsystems, whose names
  are in report order. -/
  held : s.client.aggregator = none ∨ ∃ a, s.client.aggregator = some a ∧ s.client.Carries a
  /-- Once it holds an aggregator, nothing changes the client until it is closed; its subsystems
  are those of the start, and starting it gives that aggregator. -/
  kept : ∀ a, s.client.aggregator = some a → ∀ ops, .close ∉ ops →
    (s.run ops).client = s.client ∧
      (s.run ops).perform .start = (s.run ops, .ok (.aggregator a))
  /-- A registration is refused exactly while the client is started, or else if the name cannot be
  one or is taken; a refusal changes nothing.  Neither does the failure to tell a name that is no
  text and has none, which stands in for its refusal. -/
  registers : ∀ (v : Value) (p : Provider),
    (s.client.started = true ∧ s.perform (.register v p) = (s, fail .alreadyStarted)) ∨
    (s.client.started = false ∧ (∀ n : Name, v.points? ≠ some n.points) ∧
      (v.hasText = true ∧ (∃ shown, s.perform (.register v p) = (s, .error (invalidName shown))) ∨
        v.hasText = false ∧ s.perform (.register v p) = (s, fail .tooLongToWrite))) ∨
    (s.client.started = false ∧ ∃ n : Name, v.points? = some n.points ∧ n ∈ s.client.names ∧
      s.perform (.register v p) = (s, .error (duplicateName n))) ∨
    (s.client.started = false ∧ ∃ n : Name, v.points? = some n.points ∧ n ∉ s.client.names ∧
      s.perform (.register v p) = ({ s with client := { s.client with
        subsystems := s.client.subsystems ++ [(n, p)] } }, .ok .nothing))
  /-- Starting gives the aggregator that is held, or a new one if all subsystems can be called;
  otherwise it fails and changes nothing. -/
  starts :
    (∃ a, s.client.aggregator = some a ∧ s.perform .start = (s, .ok (.aggregator a))) ∨
    (s.client.aggregator = none ∧ (∀ x ∈ s.client.subsystems, x.2.isCallable = true) ∧
      ∃ a, s.perform .start =
        ({ s with client := { s.client with aggregator := some a } }, .ok (.aggregator a))) ∨
    (s.client.aggregator = none ∧ ∃ x ∈ s.client.subsystems, x.2.isCallable = false ∧
      s.perform .start = (s, fail (.noStatistics x.1.value.describe)))
  /-- Requests start the client first, and fail if that fails. -/
  requests : ∀ full, (s.perform (.request full)).1.client = (s.perform .start).1.client ∧
    (s.perform (.report full)).1.client = (s.perform .start).1.client ∧
    ∀ f, (s.perform .start).2 = .error f →
      s.perform (.request full) = (s, .error f) ∧ s.perform (.report full) = (s, .error f)
  /-- Closing always succeeds, and closing again changes nothing. -/
  closes : s.perform .close =
      ({ s with client := { s.client with aggregator := none } }, .ok .nothing) ∧
    (s.perform .close).1.perform .close = ((s.perform .close).1, .ok .nothing)
  /-- Asking for the current state changes nothing, and there is nothing to tell. -/
  tells : s.perform .currentState = (s, .ok (.updates []))
  /-- Nothing ever meets an aggregator that was torn down, or misses a subsystem; only
  registrations are about the name of one. -/
  raises : ∀ op f, (s.perform op).2 = .error f →
    f.className ≠ "AggregatorClosedError" ∧ f.className ≠ "KeyError" ∧
      (f.className = "DuplicateProviderError" ∨ f.className = "InvalidProviderNameError" →
        ∃ name subsystem, op = .register name subsystem)

theorem perform_register (s : Scene) (v : Value) (p : Provider) :
    s.perform (.register v p) = match s.client.register v p with
      | .ok c => ({ s with client := c }, .ok .nothing)
      | .error f => (s, .error f) := rfl

/-- Whatever was done with a client, everything about it is in order afterwards. -/
theorem every_life_is_orderly (session : Session) (config : ConfigFile) (sink : Sink)
    (world : World) (ops : List Operation) :
    (run ⟨.new session config sink, world⟩ ops).Orderly := by
  have h : (run ⟨.new session config sink, world⟩ ops).client.Sound :=
    run_sound (new_sound session config sink) ops
  generalize run ⟨.new session config sink, world⟩ ops = s at h
  constructor
  case held =>
    cases haggregator : s.client.aggregator with
    | none => exact .inl rfl
    | some a => exact .inr ⟨a, rfl, h.held a haggregator⟩
  case kept =>
    intro a ha ops hops
    have hkept := run_client_of_started h ha hops
    refine ⟨hkept, ?_⟩
    simp only [perform, Client.start, hkept, ha]
    rw [← hkept]
  case registers =>
    intro v p
    rw [perform_register]
    rcases register_cases s.client v p with
      ⟨hstarted, hfail⟩ | ⟨hclosed, hnone, ⟨htext, shown, hfail⟩ | ⟨hlong, hfail⟩⟩ |
        ⟨hclosed, n, hn, htaken, hfail⟩ | ⟨hclosed, n, hn, hnew, hok⟩
    · exact .inl ⟨hstarted, by rw [hfail]; rfl⟩
    · exact .inr (.inl ⟨hclosed, hnone, .inl ⟨htext, shown, by rw [hfail]⟩⟩)
    · exact .inr (.inl ⟨hclosed, hnone, .inr ⟨hlong, by rw [hfail]; rfl⟩⟩)
    · exact .inr (.inr (.inl ⟨hclosed, n, hn, htaken, by rw [hfail]⟩))
    · exact .inr (.inr (.inr ⟨hclosed, n, hn, hnew, by rw [hok]⟩))
  case starts =>
    simp only [perform]
    rcases start_cases h with
      ⟨a, ha, hok⟩ | ⟨hnone, hcall, a, -, hok⟩ | ⟨hnone, x, hx, hcall, hfail⟩
    · exact .inl ⟨a, ha, by rw [hok]⟩
    · exact .inr (.inl ⟨hnone, hcall, a, by rw [hok]⟩)
    · exact .inr (.inr ⟨hnone, x, hx, hcall, by rw [hfail]; rfl⟩)
  case requests => exact perform_request h
  case closes =>
    have hagain := perform_close (perform_sound h .close)
    rw [perform_close h] at hagain
    exact ⟨perform_close h, by rw [perform_close h, hagain]⟩
  case tells => simp only [perform, currentState_eq h]; rfl
  case raises =>
    intro op f hf
    rcases className_of_perform h hf with ⟨name, subsystem, rfl, hrefused⟩ | hraisable
    · refine ⟨?_, ?_, fun _ => ⟨name, subsystem, rfl⟩⟩
      · intro hclass
        exact absurd (hclass ▸ hrefused) (by decide : "AggregatorClosedError" ∉ refusals)
      · intro hclass
        exact absurd (hclass ▸ hrefused) (by decide : "KeyError" ∉ refusals)
    · refine ⟨?_, ?_, ?_⟩
      · intro hclass
        exact absurd (hclass ▸ hraisable) (by decide : "AggregatorClosedError" ∉ raisable)
      · intro hclass
        exact absurd (hclass ▸ hraisable) (by decide : "KeyError" ∉ raisable)
      · rintro (hclass | hclass)
        · exact absurd (hclass ▸ hraisable) (by decide : "DuplicateProviderError" ∉ raisable)
        · exact absurd (hclass ▸ hraisable) (by decide : "InvalidProviderNameError" ∉ raisable)

/-- A number with too many digits is no name, and a registration under it is not refused as one:
telling the number fails first. -/
theorem untold_name_is_not_refused_registration :
    let s : Scene := ⟨.new {} {} .none, .fresh⟩
    let quiet : Provider := ⟨0, .plain, fun _ => ⟨[], none⟩⟩
    let op : Operation := .register .tooLong quiet
    s.client.started = false ∧ (∀ n : Name, Value.tooLong.points? ≠ some n.points) ∧
      s.perform op = (s, fail .tooLongToWrite) ∧
      ∀ shown, (s.perform op).2 ≠ .error (invalidName shown) := by
  intro s quiet op
  have hnone : Value.tooLong.points? = none := points?_of_not_hasText Value.hasText_tooLong
  have hregister : s.client.register .tooLong quiet = fail .tooLongToWrite := by
    simp [register, validateName_untold Value.hasText_tooLong, s, new, started, bind, Except.bind,
      fail]
  have hperform : s.perform op = (s, fail .tooLongToWrite) := by
    rw [perform_register, hregister]
    rfl
  refine ⟨rfl, fun n => by simp [hnone], hperform, fun shown h => ?_⟩
  rw [hperform] at h
  cases h

/-- The refusals of registrations and of starts, by class. -/
example : (Fault.failed .alreadyStarted).className = "RuntimeError" ∧
    (Fault.failed (.noStatistics "'rooms'")).className = "TypeError" := ⟨rfl, rfl⟩

end Scene

end Client

end UsageReport
