/-
The life of an aggregator.  It is open until it is torn down, which succeeds once, whether or not
it was started up before.  From then on every operation is refused under its own name before it
touches anything, so nothing that the aggregator could reach ever changes through it again.
-/
import UsageReport.Aggregator.Operation

namespace UsageReport

namespace Aggregator

variable {α : Type}

namespace Operation

/-- The name that the refusal of an operation carries; what happens elsewhere is never refused. -/
def name? : Operation α → Option String
  | startUp => some "start_up"
  | tearDown => some "tear_down"
  | currentState _ => some "get_current_state"
  | request _ _ _ => some "get_memory_stats"
  | elsewhere _ => none

/-- What an operation gives that a fault ends before it does anything; the promise of a request is
still what it was. -/
def stopped (f : Fault) : Operation α → Answer α
  | startUp => .done (.error f)
  | tearDown => .done (.error f)
  | currentState _ => .updates (.error f)
  | request _ _ p => .promise p (.error f)
  | elsewhere _ => .done (.error f)

end Operation

/-- The aggregator once it is torn down: it has let go of the client and of all providers. -/
def tornDown (a : Aggregator) : Aggregator :=
  { a with host := none, registry := .empty, running := false, closed := true }

/-- What an operation makes of an open aggregator. -/
def become (a : Aggregator) : Operation α → Aggregator
  | .startUp => { a with running := true }
  | .tearDown => a.tornDown
  | _ => a

/-- An aggregator that can come about: it runs only while it is open, and once it is closed it
holds neither a client nor providers. -/
structure Sound (a : Aggregator) : Prop where
  open_of_running : a.running = true → a.closed = false
  host_of_closed : a.closed = true → a.host = none
  registry_of_closed : a.closed = true → a.registry = .empty

theorem Sound.not_running (h : Sound a) (hclosed : a.closed = true) : a.running = false := by
  rw [Bool.eq_false_iff]
  intro hrunning
  rw [h.open_of_running hrunning] at hclosed
  cases hclosed

theorem tornDown_sound (a : Aggregator) : a.tornDown.Sound where
  open_of_running hrunning := by cases hrunning
  host_of_closed _ := rfl
  registry_of_closed _ := rfl

theorem become_sound {a : Aggregator} (hopen : a.closed = false) (op : Operation α) :
    (a.become op).Sound := by
  have hstill (b : Aggregator) (hb : b.closed = false) : b.Sound := by
    refine ⟨fun _ => hb, fun hclosed => ?_, fun hclosed => ?_⟩
    · rw [hb] at hclosed
      cases hclosed
    · rw [hb] at hclosed
      cases hclosed
  cases op with
  | tearDown => exact a.tornDown_sound
  | startUp => exact hstill _ hopen
  | currentState updates => exact hstill a hopen
  | request deliver full p => exact hstill a hopen
  | elsewhere change => exact hstill a hopen

namespace Scene

variable {s : Scene}

/-! ### One operation -/

/-- The gate of every operation on a closed aggregator. -/
theorem ensureOpen_of_closed (hclosed : s.aggregator.closed = true) (name : String) :
    s.aggregator.ensureOpen name = .error (closedFault name) :=
  if_pos hclosed

theorem ensureOpen_of_open (hopen : s.aggregator.closed = false) (name : String) :
    s.aggregator.ensureOpen name = .ok () := by
  rw [ensureOpen, hopen]
  rfl

/-- A closed aggregator refuses an operation and leaves the whole scene as it was. -/
theorem perform_of_closed (hclosed : s.aggregator.closed = true) {op : Operation α}
    {name : String} (hname : op.name? = some name) :
    s.perform op = (s, op.stopped (closedFault name)) := by
  cases op with
  | startUp =>
      cases hname
      simp only [perform, startUp, ensureOpen_of_closed hclosed]
      rfl
  | tearDown =>
      cases hname
      simp only [perform, tearDown, ensureOpen_of_closed hclosed]
      rfl
  | currentState updates =>
      cases hname
      simp only [perform, currentState, ensureOpen_of_closed hclosed]
      rfl
  | request deliver full p =>
      cases hname
      simp only [perform, Aggregator.request, ensureOpen_of_closed hclosed]
      rfl
  | elsewhere change => cases hname

/-- What happens elsewhere leaves the aggregator alone. -/
theorem perform_elsewhere {op : Operation α} (hname : op.name? = none) :
    (s.perform op).1.aggregator = s.aggregator := by
  cases op with
  | elsewhere change => rfl
  | startUp | tearDown | currentState | request => cases hname

theorem perform_aggregator_of_closed (hclosed : s.aggregator.closed = true) (op : Operation α) :
    (s.perform op).1.aggregator = s.aggregator := by
  cases hname : op.name? with
  | none => exact perform_elsewhere hname
  | some name => rw [perform_of_closed hclosed hname]

/-- An open aggregator becomes what the operation makes of it. -/
theorem perform_aggregator_of_open (hopen : s.aggregator.closed = false) (op : Operation α) :
    (s.perform op).1.aggregator = s.aggregator.become op := by
  cases op with
  | startUp =>
      simp only [perform, startUp, ensureOpen_of_open hopen]
      rfl
  | tearDown =>
      simp only [perform, tearDown, ensureOpen_of_open hopen]
      rfl
  | currentState updates => rfl
  | request deliver full p => rfl
  | elsewhere change => rfl

/-- An open aggregator can be torn down, and nothing around it changes. -/
theorem perform_tearDown_of_open (hopen : s.aggregator.closed = false) :
    s.perform (.tearDown : Operation α) =
      (⟨s.aggregator.tornDown, s.world⟩, .done (.ok ())) := by
  simp only [perform, tearDown, ensureOpen_of_open hopen]
  rfl

/-- Asking for the current state changes nothing; an open aggregator has nothing to add to the
notifications, whatever its session is. -/
theorem perform_currentState (s : Scene) (updates : List Update) :
    s.perform (.currentState updates : Operation α) =
      (s, .updates (if s.aggregator.closed then .error (closedFault "get_current_state")
        else .ok updates)) := by
  cases hclosed : s.aggregator.closed with
  | true => exact perform_of_closed hclosed rfl
  | false =>
      have hsession (automated : Bool) :
          (if automated then updates else updates ++ []) = updates := by
        rw [List.append_nil, ite_self]
      simp only [perform, currentState, ensureOpen_of_open hclosed, hsession]
      rfl

theorem perform_sound (h : s.aggregator.Sound) (op : Operation α) :
    (s.perform op).1.aggregator.Sound := by
  cases hclosed : s.aggregator.closed with
  | true =>
      rw [perform_aggregator_of_closed hclosed]
      exact h
  | false =>
      rw [perform_aggregator_of_open hclosed]
      exact become_sound hclosed op

/-- One operation closes an aggregator only by tearing it down. -/
theorem perform_closed_iff (s : Scene) (op : Operation α) :
    (s.perform op).1.aggregator.closed = true ↔ s.aggregator.closed = true ∨ op = .tearDown := by
  cases hclosed : s.aggregator.closed with
  | true => simp [perform_aggregator_of_closed hclosed, hclosed]
  | false =>
      rw [perform_aggregator_of_open hclosed]
      cases op <;> simp [become, tornDown, hclosed]

/-! ### Whole runs -/

theorem run_sound (h : s.aggregator.Sound) (ops : List (Operation α)) :
    (s.run ops).aggregator.Sound := by
  induction ops generalizing s with
  | nil => exact h
  | cons op rest ih => exact ih (perform_sound h op)

/-- A run closes an aggregator only by tearing it down. -/
theorem run_closed_iff (s : Scene) (ops : List (Operation α)) :
    (s.run ops).aggregator.closed = true ↔
      s.aggregator.closed = true ∨ .tearDown ∈ ops := by
  induction ops generalizing s with
  | nil => simp [run]
  | cons op rest ih =>
      have hrun : s.run (op :: rest) = (s.perform op).1.run rest := rfl
      rw [hrun, ih, perform_closed_iff, List.mem_cons, or_assoc, eq_comm (a := op)]

/-- A closed aggregator stays exactly as it is, whatever is done. -/
theorem run_aggregator_of_closed (hclosed : s.aggregator.closed = true)
    (ops : List (Operation α)) : (s.run ops).aggregator = s.aggregator := by
  induction ops generalizing s with
  | nil => rfl
  | cons op rest ih =>
      have hsame := perform_aggregator_of_closed hclosed op
      have hrest := ih (s := (s.perform op).1) (by rw [hsame, hclosed])
      exact hrest.trans hsame

/-- Operations on a closed aggregator change nothing at all. -/
theorem run_of_closed (hclosed : s.aggregator.closed = true) {ops : List (Operation α)}
    (hnamed : ∀ op ∈ ops, op.name?.isSome = true) : s.run ops = s := by
  induction ops with
  | nil => rfl
  | cons op rest ih =>
      obtain ⟨name, hname⟩ := Option.isSome_iff_exists.mp (hnamed op List.mem_cons_self)
      have hrun : s.run (op :: rest) = (s.perform op).1.run rest := rfl
      rw [hrun, perform_of_closed hclosed hname]
      apply ih
      intro other hother
      exact hnamed other (List.mem_cons_of_mem op hother)

end Scene

/-- However a new aggregator is used, it runs only while it is open, and it is closed once it was
torn down.  Tearing it down succeeds the first time, whether or not it was started up, and touches
nothing around it.  From then on it is not running, it holds neither a client nor providers, and it
stays so whatever is done; every operation on it is refused by a fault that carries the name of
the operation, and leaves the aggregator, the world with its metrics, log, files and calls, and the
promise that was passed as they were.  The notifications about the current state are those
given, in every state and whatever the session. -/
theorem tearing_down_is_final (settings : Settings) (registry : Registry) (sink : Sink)
    (host : Option (Option Session)) (measured : Bool) (w : World)
    (before : List (Operation α)) :
    let s := Scene.run ⟨{ settings, registry, sink, host, measured }, w⟩ before
    (s.aggregator.running = true → s.aggregator.closed = false) ∧
    (s.aggregator.closed = true ↔ .tearDown ∈ before) ∧
    (.tearDown ∉ before → ∃ a, s.perform (.tearDown : Operation α) =
      (⟨a, s.world⟩, .done (.ok ()))) ∧
    (.tearDown ∈ before →
      s.aggregator.running = false ∧ s.aggregator.host = none ∧
      s.aggregator.registry = .empty ∧
      (∀ (op : Operation α) name, op.name? = some name → s.perform op =
        (s, op.stopped (.standard .aggregatorClosed [("operation", .text name)]))) ∧
      (∀ later : List (Operation α), (∀ op ∈ later, op.name?.isSome = true) →
        s.run later = s) ∧
      ∀ later : List (Operation α), (s.run later).aggregator = s.aggregator) ∧
    ∀ updates : List Update, s.perform (.currentState updates : Operation α) =
      (s, .updates (if s.aggregator.closed then
        .error (.standard .aggregatorClosed [("operation", .text "get_current_state")])
        else .ok updates)) := by
  intro s
  have hnew : Sound { settings, registry, sink, host, measured } := by
    refine ⟨fun _ => rfl, fun hclosed => ?_, fun hclosed => ?_⟩
    · cases hclosed
    · cases hclosed
  have hsound : s.aggregator.Sound := Scene.run_sound hnew before
  have hclosed_iff : s.aggregator.closed = true ↔ .tearDown ∈ before := by
    rw [Scene.run_closed_iff]
    exact or_iff_right Bool.false_ne_true
  refine ⟨hsound.open_of_running, hclosed_iff, ?first, ?closed, s.perform_currentState⟩
  case first =>
    intro hnot
    have hopen : s.aggregator.closed = false :=
      Bool.eq_false_iff.mpr fun hclosed => hnot (hclosed_iff.mp hclosed)
    exact ⟨_, Scene.perform_tearDown_of_open hopen⟩
  case closed =>
    intro htorn
    have hclosed := hclosed_iff.mpr htorn
    refine ⟨hsound.not_running hclosed, hsound.host_of_closed hclosed,
      hsound.registry_of_closed hclosed, ?_, ?_, ?_⟩
    · intro op name hname
      exact Scene.perform_of_closed hclosed hname
    · intro later hnamed
      exact Scene.run_of_closed hclosed hnamed
    · intro later
      exact Scene.run_aggregator_of_closed hclosed later

end Aggregator

end UsageReport
