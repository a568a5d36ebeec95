/-
What `done` tells of the future behind a promise.  A promise counts as done from the first attempt
to set its result, and its future is over from that attempt on or from the first cancel.  So the
two part where the future is cancelled before anything was set, and nowhere else: the promise
still passes for open then, and the result that is set next is lost.  On every other promise that
is not done a set succeeds.  Within the call the promise may be used in any way; the call itself
ends without a fault, unless the caller's own function leaves with one.
-/
import UsageReport.Proofs.Promise.Runs

namespace UsageReport

variable {α : Type}

/-- Whether this is someone whom a set tells that succeeds when all have been told. -/
def Frame.IsOfSet : Frame α → Prop
  | .telling _ _ answer => answer = .set (.ok ())
  | .calling => True

theorem Move.decided_cons_of_none {m : Move α} (hends : m.ends? = none) (rest : List (Move α)) :
    Move.decided (m :: rest) = Move.decided rest := by
  simp [Move.decided, hends]

/-- Where nothing was set, a cancel decided the future, or nothing did. -/
theorem Move.decided_of_unset {moves : List (Move α)}
    (hnone : moves.any Move.isSet = false) :
    (Move.decided moves = .pending ∧ Move.cancel ∉ moves) ∨
      (Move.decided moves = .cancelled ∧ Move.cancel ∈ moves) := by
  induction moves with
  | nil => exact Or.inl ⟨rfl, by simp⟩
  | cons m rest ih =>
      obtain ⟨hm, hrest⟩ : m.isSet = false ∧ rest.any Move.isSet = false := by simpa using hnone
      cases m with
      | setValue | setError => cases hm
      | cancel => exact Or.inr ⟨rfl, List.mem_cons_self⟩
      | result | onDone | leave =>
          rw [Move.decided_cons_of_none rfl]
          simpa using ih hrest

namespace Exchange

variable {x : Exchange α} {trace : Option TraceId} {outer : List (Frame α)}

/-! ### Calls and their answers -/

/-- The answer of a call that was made at a depth and whose first step led to `s`, once moves have
brought it to its end: no more are being told then than before the call. -/
def answered (trace : Option TraceId) (depth : Nat) (s : Exchange α × Option (Answer α)) :
    List (Move α) → Option (Answer α)
  | [] => if s.1.running.length ≤ depth then s.2 else none
  | m :: rest =>
    if s.1.running.length ≤ depth then s.2 else answered trace depth (s.1.step trace m) rest

theorem answered_of_le {depth : Nat} {s : Exchange α × Option (Answer α)}
    (h : s.1.running.length ≤ depth) (moves : List (Move α)) :
    answered trace depth s moves = s.2 := by
  cases moves <;> exact if_pos h

/-- A move sets the result with success. -/
structure Sets (x : Exchange α) (trace : Option TraceId) (m : Move α) : Prop where
  /-- The future takes the result and keeps it, and the promise is done. -/
  takes : ∀ more, m.ends? = some (run trace (x.step trace m) more).1.promise.future ∧
    (run trace (x.step trace m) more).1.promise.done = true
  /-- If all who are told just leave, the call ends without a fault. -/
  ends : ∃ n, answered trace x.running.length (x.step trace m) (List.replicate n (.leave none)) =
    some (.set (.ok ()))
  /-- Whatever happens within the call, it ends without a fault or with the one with which the
  caller's function leaves that this very call told. -/
  answers : ∀ more answer, answered trace x.running.length (x.step trace m) more = some answer →
    answer = .set (.ok ()) ∨ ∃ f before after, more = before ++ .leave (some f) :: after ∧
      (run trace (x.step trace m) before).1.running = .calling :: x.running ∧
      answer = .set (.error f)

/-! ### Who is being told within a call -/

/-- Telling either begins with one who is told, or is over at once. -/
theorem tell_cases (x : Exchange α) (trace : Option TraceId) (tags : List Value)
    (last : Option (Event α)) (answer : Answer α) :
    (∃ own, (x.tell trace tags last answer).1.running = own :: x.running ∧
      (answer = .set (.ok ()) → own.IsOfSet)) ∨
        x.tell trace tags last answer = (x, some answer) := by
  cases tags with
  | cons tag rest => exact Or.inl ⟨.telling rest last answer, rfl, id⟩
  | nil =>
      cases last with
      | some event => exact Or.inl ⟨.calling, rfl, fun _ => trivial⟩
      | none => exact Or.inr rfl

theorem tell_running (x : Exchange α) (trace : Option TraceId) (tags : List Value)
    (last : Option (Event α)) (answer : Answer α) :
    ∃ above, (x.tell trace tags last answer).1.running = above ++ x.running := by
  rcases x.tell_cases trace tags last answer with ⟨own, hown, -⟩ | hover
  · exact ⟨[own], hown⟩
  · exact ⟨[], by rw [hover]; rfl⟩

theorem resolve_running (x : Exchange α) (trace : Option TraceId) (state : Future α)
    (reaction : Option Reaction) (event : Event α) :
    ∃ above, (x.resolve trace state reaction event).1.running = above ++ x.running := by
  unfold resolve
  split
  · exact ⟨[], rfl⟩
  · split
    · exact tell_running _ _ _ _ _
    · exact ⟨[], rfl⟩

/-- Only a leave takes anyone away from those who are being told. -/
theorem step_running (x : Exchange α) (trace : Option TraceId) {m : Move α}
    (hleave : m.isLeave = false) :
    ∃ above, (x.step trace m).1.running = above ++ x.running := by
  cases m with
  | setValue a => exact x.resolve_running trace _ _ _
  | setError f => exact x.resolve_running trace _ _ _
  | result => exact ⟨[], rfl⟩
  | cancel =>
      change ∃ above, (x.cancel trace).1.running = _
      unfold cancel
      split
      · exact tell_running _ _ _ _ _
      · exact ⟨[], rfl⟩
      · exact ⟨[], rfl⟩
  | onDone tag =>
      change ∃ above, (x.wait trace tag).1.running = _
      unfold wait
      split
      · exact ⟨[], rfl⟩
      · exact tell_running _ _ _ _ _
  | leave fault => cases hleave

/-- A set that succeeds when all have been told is still under way: one whom it tells is being
told, right above those who were being told before it. -/
def Within (outer : List (Frame α)) (x : Exchange α) : Prop :=
  ∃ above own, x.running = above ++ own :: outer ∧ own.IsOfSet

theorem Within.of_running {above : List (Frame α)} {y : Exchange α} (h : Within outer x)
    (hrunning : y.running = above ++ x.running) : Within outer y := by
  obtain ⟨inner, own, hx, hown⟩ := h
  exact ⟨above ++ inner, own, by rw [hrunning, hx, List.append_assoc], hown⟩

theorem Within.depth_lt (h : Within outer x) : ¬ x.running.length ≤ outer.length := by
  obtain ⟨above, own, hx, -⟩ := h
  simp [hx]
  omega

theorem leave_of_telling {rest : List Value} {last : Option (Event α)} {answer : Answer α}
    (hrunning : x.running = .telling rest last answer :: outer) (trace : Option TraceId)
    (fault : Option Fault) :
    x.leave trace fault =
      if fault.all Fault.isCatchable then
        tell { x with running := outer } trace rest last answer
      else (x, none) := by
  rw [leave, hrunning]

/-- Within a call, a move stays within it, or ends it without a fault, or is the leave of the
caller's function and ends the call with its fault. -/
theorem Within.step (h : Within outer x) (trace : Option TraceId) (m : Move α) :
    Within outer (x.step trace m).1 ∨
      ((x.step trace m).1.running = outer ∧ (x.step trace m).2 = some (.set (.ok ()))) ∨
      ∃ f, m = .leave (some f) ∧ x.running = .calling :: outer ∧
        (x.step trace m).1.running = outer ∧ (x.step trace m).2 = some (.set (.error f)) := by
  cases hleave : m.isLeave with
  | false =>
      obtain ⟨above, hrunning⟩ := x.step_running trace hleave
      exact Or.inl (h.of_running hrunning)
  | true =>
      obtain ⟨fault, rfl⟩ : ∃ fault, m = .leave fault := by
        cases m <;> first | exact ⟨_, rfl⟩ | cases hleave
      have hstay := h
      obtain ⟨above, own, hx, hown⟩ := h
      change Within outer (x.leave trace fault).1 ∨
        ((x.leave trace fault).1.running = outer ∧ (x.leave trace fault).2 = _) ∨
        ∃ f, _ ∧ _ ∧ (x.leave trace fault).1.running = outer ∧ (x.leave trace fault).2 = _
      cases above with
      | nil =>
          -- The one who leaves was told by the call itself.
          rw [List.nil_append] at hx
          cases own with
          | calling =>
              cases fault with
              | none => exact Or.inr (Or.inl (by simp [leave, hx]))
              | some f => exact Or.inr (Or.inr ⟨f, rfl, hx, by simp [leave, hx]⟩)
          | telling rest last answer =>
              obtain rfl : answer = .set (.ok ()) := hown
              rw [leave_of_telling hx]
              split
              · rcases tell_cases { x with running := outer } trace rest last (.set (.ok ())) with
                  ⟨next, hnext, hof⟩ | hover
                · exact Or.inl ⟨[], next, hnext, hof rfl⟩
                · exact Or.inr (Or.inl (by rw [hover]; exact ⟨rfl, rfl⟩))
              · exact Or.inl hstay
      | cons inner above =>
          -- Someone leaves who was told by another call within this one.
          have hrest : Within outer { x with running := above ++ own :: outer } :=
            ⟨above, own, rfl, hown⟩
          left
          cases inner with
          | calling =>
              rw [leave, hx]
              cases fault <;> exact hrest
          | telling rest last answer =>
              rw [leave_of_telling hx]
              split
              · obtain ⟨above', habove⟩ :=
                  tell_running { x with running := above ++ own :: outer } trace rest last answer
                exact hrest.of_running habove
              · exact hstay

/-- However a call goes on that is under way, its answer is no fault, or the one with which the
caller's function leaves. -/
theorem Within.answered_eq {s : Exchange α × Option (Answer α)} (h : Within outer s.1)
    {moves : List (Move α)} {answer : Answer α}
    (hanswer : answered trace outer.length s moves = some answer) :
    answer = .set (.ok ()) ∨ ∃ f before after, moves = before ++ .leave (some f) :: after ∧
      (run trace s before).1.running = .calling :: outer ∧ answer = .set (.error f) := by
  induction moves generalizing s with
  | nil =>
      rw [answered, if_neg h.depth_lt] at hanswer
      cases hanswer
  | cons m rest ih =>
      rw [answered, if_neg h.depth_lt] at hanswer
      rcases h.step trace m with hstay | ⟨hrunning, hok⟩ | ⟨f, rfl, hcalling, hrunning, hfault⟩
      · rcases ih hstay hanswer with hok | ⟨f, before, after, rfl, hcalling, hfault⟩
        · exact Or.inl hok
        · exact Or.inr ⟨f, m :: before, after, rfl, hcalling, hfault⟩
      · rw [answered_of_le (by rw [hrunning]), hok] at hanswer
        exact Or.inl (Option.some.inj hanswer).symm
      · rw [answered_of_le (by rw [hrunning]), hfault] at hanswer
        exact Or.inr ⟨f, [], rest, rfl, hcalling, (Option.some.inj hanswer).symm⟩

/-- If all who are told leave without a fault, telling ends with its answer. -/
theorem tell_answered (x : Exchange α) (trace : Option TraceId) (tags : List Value)
    (last : Option (Event α)) :
    ∃ n, answered trace x.running.length (x.tell trace tags last (.set (.ok ())))
      (List.replicate n (.leave none)) = some (.set (.ok ())) := by
  induction tags generalizing x with
  | nil =>
      cases last with
      | none => exact ⟨0, if_pos (Nat.le_refl _)⟩
      | some event => exact ⟨1, by simp [answered, tell, step, leave]⟩
  | cons tag rest ih =>
      obtain ⟨n, hn⟩ := ih { x with promise := x.promise.note trace (.done tag) }
      refine ⟨n + 1, ?_⟩
      rw [List.replicate_succ, answered, if_neg (by simp [tell])]
      exact hn

/-! ### Sets on a promise that is not done -/

variable {onValue onError : Option Reaction} {moves : List (Move α)} {m : Move α}

/-- The first set on a pending future tells all who wait, and then the caller's function. -/
theorem step_of_open (hclaimed : x.promise.claimed = false) (hpending : x.promise.future = .pending)
    (hset : m.isSet = true) (trace : Option TraceId) :
    ∃ (y : Exchange α) (tags : List Value) (last : Option (Event α)), y.running = x.running ∧
      x.step trace m = y.tell trace tags last (.set (.ok ())) := by
  have hclaim : x.promise.claim = .ok { x.promise with claimed := true } :=
    if_neg (by simp [hclaimed])
  let settled (state : Future α) : Exchange α :=
    { x with promise := { x.promise with claimed := true, future := state, waiting := [] } }
  cases m with
  | setValue a =>
      rw [step, resolve, hclaim]
      simp only [hpending]
      exact ⟨settled (.value a), x.promise.waiting, _, rfl, rfl⟩
  | setError f =>
      rw [step, resolve, hclaim]
      simp only [hpending]
      exact ⟨settled (.error f), x.promise.waiting, _, rfl, rfl⟩
  | result | cancel | onDone | leave => cases hset

/-- What is set on a pending future, the future keeps, and the promise is done from then on. -/
theorem kept_of_pending (hpending : Move.decided moves = .pending) (hset : m.isSet = true)
    (trace : Option TraceId) (more : List (Move α)) :
    let y := after onValue onError trace (moves ++ [m] ++ more)
    m.ends? = some y.promise.future ∧ y.promise.done = true := by
  intro y
  have h := follows_after onValue onError trace (moves ++ [m] ++ more)
  have hended : Move.decided (moves ++ [m]) ≠ .pending := Move.decided_ne_pending (by simp [hset])
  constructor
  · rw [h.future, Move.decided_append hended, Move.decided_append_of_pending hpending]
    cases m <;> first | rfl | cases hset
  · exact h.claimed.trans (by simp [hset])

/-- On a promise that is not done and whose future is pending, a set succeeds. -/
theorem sets_of_open (hclaimed : (after onValue onError trace moves).promise.claimed = false)
    (hpending : (after onValue onError trace moves).promise.future = .pending)
    (hset : m.isSet = true) : (after onValue onError trace moves).Sets trace m := by
  have hdecided := (follows_after onValue onError trace moves).future ▸ hpending
  have hrun (more : List (Move α)) :
      (run trace ((after onValue onError trace moves).step trace m) more).1 =
        after onValue onError trace (moves ++ [m] ++ more) := by
    simp only [after, run_append]
    rfl
  obtain ⟨y, tags, last, hrunning, hstep⟩ := step_of_open hclaimed hpending hset trace
  constructor
  · intro more
    rw [hrun]
    exact kept_of_pending hdecided hset trace more
  · rw [hstep, ← hrunning]
    exact y.tell_answered trace tags last
  · intro more answer hanswer
    rw [hstep, ← hrunning] at hanswer ⊢
    rcases y.tell_cases trace tags last (.set (.ok ())) with ⟨own, hown, hof⟩ | hover
    · have hwithin : Within y.running (y.tell trace tags last (.set (.ok ()))).1 :=
        ⟨[], own, hown, hof rfl⟩
      exact hwithin.answered_eq hanswer
    · rw [hover, answered_of_le (s := (y, some (.set (.ok ())))) (Nat.le_refl _)] at hanswer
      exact Or.inl (Option.some.inj hanswer).symm

/-- This is what `done` tells, whatever the holder of the promise, the caller's functions and those
who wait did, in whatever order and within one another.  A promise that is done has no pending
future.  The converse holds as well, and `done` tells the truth, exactly if something was set or
nothing was cancelled.  On a promise that is not done a set succeeds as long as the future is
pending.  If it is not, it was cancelled; then the set fails, its result is lost, and from then on
the promise is done. -/
theorem done_tells_truth_iff_set_or_not_cancelled (onValue onError : Option Reaction)
    (trace : Option TraceId) (moves : List (Move α)) :
    let x := after onValue onError trace moves
    (x.promise.done = true → x.promise.future ≠ .pending) ∧
    ((x.promise.done = true ↔ x.promise.future ≠ .pending) ↔
      (moves.any Move.isSet = true ∨ Move.cancel ∉ moves)) ∧
    ∀ m : Move α, m.isSet = true → x.promise.done = false →
      (x.promise.future = .pending ∧ x.Sets trace m) ∨
      (x.promise.future = .cancelled ∧
        x.step trace m = ({ x with promise := { x.promise with claimed := true } },
          some (.set (fail .invalidState)))) := by
  intro x
  have h := follows_after onValue onError trace moves
  have hdone : x.promise.done = moves.any Move.isSet := h.claimed
  have htrue : x.promise.done = true → x.promise.future ≠ .pending := by
    intro hset
    rw [h.future]
    exact Move.decided_ne_pending (hdone ▸ hset)
  refine ⟨htrue, ?_, ?_⟩
  · cases hany : moves.any Move.isSet with
    | true =>
        have hset : x.promise.done = true := hdone.trans hany
        simp [hset, htrue hset]
    | false =>
        have hunset : x.promise.done = false := hdone.trans hany
        have hfuture : x.promise.future = Move.decided moves := h.future
        rcases Move.decided_of_unset hany with ⟨hpending, hnever⟩ | ⟨hcancelled, hcancel⟩
        · simp [hunset, hfuture, hpending, hnever]
        · simp [hunset, hfuture, hcancelled, hcancel]
  · intro m hset hopen
    have hunset : moves.any Move.isSet = false := hdone.symm.trans hopen
    rcases Move.decided_of_unset hunset with ⟨hpending, -⟩ | ⟨hcancelled, -⟩
    · have hfuture : x.promise.future = .pending := h.future.trans hpending
      exact Or.inl ⟨hfuture, sets_of_open hopen hfuture hset⟩
    · have hfuture : x.promise.future = .cancelled := h.future.trans hcancelled
      exact Or.inr ⟨hfuture, step_of_cancelled hopen hfuture hset trace⟩

/-- A promise whose future was cancelled is not done, though its future is over, and the value
that is set on it gets lost. -/
theorem cancelled_not_done :
    let p := ((Promise.new none none : Promise Value).cancel none).1
    p.done = false ∧ p.future = .cancelled ∧
      p.setValue none .null = ({ p with claimed := true }, fail .invalidState) :=
  ⟨rfl, rfl, rfl⟩

end Exchange

end UsageReport
