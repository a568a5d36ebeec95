/-
Everything that can happen to a promise.  Its moves alone tell how an exchange stands: the first
one that sets a result or cancels decides the future, and those who wait and the caller's
function are told accordingly.  What was told and what is still to be told make up one timeline,
to which moves only add; so nobody is told twice and nobody is left out.
-/
import Mathlib.Data.List.Perm.Subperm
import Mathlib.Data.List.TakeWhile
import UsageReport.Proofs.Promise.Uses

namespace UsageReport

variable {α : Type}

/-! ### What moves and events amount to -/

namespace Move

/-- Whether a move sets a result. -/
def isSet : Move α → Bool
  | .setValue _ | .setError _ => true
  | _ => false

/-- The end state that a move brings to a pending future. -/
def ends? : Move α → Option (Future α)
  | .setValue a => some (.value a)
  | .setError f => some (.error f)
  | .cancel => some .cancelled
  | _ => none

/-- The tag of one who comes to wait. -/
def tag? : Move α → Option Value
  | .onDone tag => some tag
  | _ => none

/-- The state of the future after moves: the first end state is the last one. -/
def decided (moves : List (Move α)) : Future α := (moves.findSome? ends?).getD .pending

/-- All who came to wait, in order. -/
def registered (moves : List (Move α)) : List Value := moves.filterMap tag?

/-- Those who came to wait before the future was decided. -/
def early (moves : List (Move α)) : List Value := registered (moves.takeWhile (·.ends?.isNone))

/-- A move that ends the future ends it with a state. -/
theorem ends?_ne_pending (m : Move α) : m.ends? ≠ some .pending := by
  cases m <;> simp [ends?]

theorem decided_eq_pending_iff {moves : List (Move α)} :
    decided moves = .pending ↔ ∀ m ∈ moves, m.ends? = none := by
  rw [decided, ← List.findSome?_eq_none_iff]
  cases hfind : moves.findSome? ends? with
  | none => simp
  | some state =>
      obtain ⟨m, -, hm⟩ := List.exists_of_findSome?_eq_some hfind
      simp only [Option.getD_some, reduceCtorEq, iff_false]
      rintro rfl
      exact m.ends?_ne_pending hm

/-- A result that was set decides the future, unless something else did before. -/
theorem decided_ne_pending {moves : List (Move α)} (h : moves.any isSet = true) :
    decided moves ≠ .pending := by
  intro hpending
  obtain ⟨m, hm, hset⟩ := List.any_eq_true.mp h
  have hnone := decided_eq_pending_iff.mp hpending m hm
  cases m <;> simp [isSet, ends?] at hset hnone

theorem decided_append_of_pending {moves : List (Move α)} (h : decided moves = .pending)
    (m : Move α) : decided (moves ++ [m]) = m.ends?.getD .pending := by
  rw [decided_eq_pending_iff, ← List.findSome?_eq_none_iff] at h
  rw [decided, List.findSome?_append, h]
  simp

/-- Once the future is decided, moves change nothing about it. -/
theorem decided_append {moves : List (Move α)} (h : decided moves ≠ .pending)
    (more : List (Move α)) : decided (moves ++ more) = decided moves := by
  unfold decided at h ⊢
  cases hfind : moves.findSome? ends? with
  | none => simp [hfind] at h
  | some state => simp [List.findSome?_append, hfind]

theorem registered_append (moves more : List (Move α)) :
    registered (moves ++ more) = registered moves ++ registered more :=
  List.filterMap_append

theorem early_append_of_pending {moves : List (Move α)} (h : decided moves = .pending)
    (m : Move α) : early (moves ++ [m]) = early moves ++ registered [m] := by
  rw [decided_eq_pending_iff] at h
  have hall : ∀ m ∈ moves, m.ends?.isNone = true := fun m hm => by rw [h m hm]; rfl
  rw [early, early, List.takeWhile_append_of_pos hall, registered_append,
    List.takeWhile_eq_self_iff.mpr hall]
  congr 1
  cases m <;> rfl

theorem early_append {moves : List (Move α)} (h : decided moves ≠ .pending)
    (more : List (Move α)) : early (moves ++ more) = early moves := by
  induction moves with
  | nil => exact absurd rfl h
  | cons m rest ih =>
      cases hends : m.ends? with
      | some state => simp [early, hends]
      | none =>
          have hrest : decided rest ≠ .pending := by simpa [decided, hends] using h
          have hcons (l : List (Move α)) : early (m :: l) = registered [m] ++ early l := by
            rw [early, early, List.takeWhile_cons_of_pos (by simp [hends])]
            exact registered_append [m] _
          rw [List.cons_append, hcons, hcons, ih hrest]

end Move

namespace Event

/-- The tag of one who waited and is told. -/
def tag? : Event α → Option Value
  | .done tag => some tag
  | _ => none

/-- Whether an event reaches a function of the caller. -/
def isCall : Event α → Bool
  | .done _ => false
  | _ => true

/-- The tags of those who are told. -/
def told (events : List (Event α)) : List Value := events.filterMap tag?

/-- The events that reach the caller's functions. -/
def calls (events : List (Event α)) : List (Event α) := events.filter isCall

/-- What the caller's functions are to be told of a state. -/
def owed (onValue onError : Option Reaction) : Future α → List (Event α)
  | .value a => if onValue.isSome then [.value a] else []
  | .error f => if onError.isSome then [.error f] else []
  | _ => []

end Event

/-! ### The timeline of an exchange -/

namespace Event

theorem told_append (before after : List (Event α)) :
    told (before ++ after) = told before ++ told after := List.filterMap_append

theorem told_done (tags : List Value) :
    told (tags.map fun tag => (.done tag : Event α)) = tags := by
  simp [told, tag?, List.filterMap_map, Function.comp_def]

theorem calls_append (before after : List (Event α)) :
    calls (before ++ after) = calls before ++ calls after := List.filter_append before after

theorem calls_done (tags : List Value) :
    calls (tags.map fun tag => (.done tag : Event α)) = [] := by
  simp [calls, isCall]

/-- Those who are told before the caller's functions. -/
def toldFirst (events : List (Event α)) : List Value := told (events.takeWhile (!·.isCall))

theorem toldFirst_done_append (tags : List Value) (events : List (Event α)) :
    toldFirst (tags.map .done ++ events) = tags ++ toldFirst events := by
  induction tags with
  | nil => rfl
  | cons tag rest ih =>
      change tag :: toldFirst (rest.map .done ++ events) = _
      rw [ih, List.cons_append]

/-- What is owed reaches the caller's functions, and nobody else. -/
theorem calls_owed (onValue onError : Option Reaction) (state : Future α) :
    calls (owed onValue onError state) = owed onValue onError state ∧
      told (owed onValue onError state) = [] := by
  cases state with
  | pending | cancelled => exact ⟨rfl, rfl⟩
  | value | error =>
      simp only [owed]
      split <;> exact ⟨rfl, rfl⟩

/-- Telling one more of those who wait takes nobody's place before the caller's functions. -/
theorem toldFirst_insert (before : List (Event α)) (tag : Value) (after : List (Event α)) :
    (toldFirst (before ++ after)).Sublist (toldFirst (before ++ .done tag :: after)) := by
  apply List.Sublist.filterMap
  induction before with
  | nil => simp [isCall]
  | cons event rest ih =>
      cases hcall : event.isCall with
      | true => simp [hcall]
      | false => simpa [hcall] using ih

/-- Those who are told before the caller's functions are told before each of their events. -/
theorem toldFirst_sublist {event : Event α} (hcall : event.isCall = true)
    (before after : List (Event α)) :
    (toldFirst (before ++ event :: after)).Sublist (told before) := by
  apply List.Sublist.filterMap
  induction before with
  | nil => simp [hcall]
  | cons first rest ih =>
      cases hfirst : first.isCall with
      | true => simp [hfirst]
      | false => simpa [hfirst] using ih

end Event

/-- What is still to be told when one who is told leaves. -/
def Frame.agenda : Frame α → List (Event α)
  | .telling rest last _ => rest.map .done ++ last.toList
  | .calling => []

namespace Exchange

/-- What was told. -/
def events (x : Exchange α) : List (Event α) := x.promise.notices.map (·.event)

/-- What was told and what is still to be told. -/
def timeline (x : Exchange α) : List (Event α) := x.events ++ x.running.flatMap Frame.agenda

/-- Telling changes nothing but the notices. -/
theorem tell_promise (x : Exchange α) (trace : Option TraceId) (tags : List Value)
    (last : Option (Event α)) (answer : Answer α) :
    ∃ notices, (x.tell trace tags last answer).1.promise = { x.promise with notices } := by
  cases tags with
  | cons tag rest => exact ⟨_, rfl⟩
  | nil =>
      cases last with
      | some event => exact ⟨_, rfl⟩
      | none => exact ⟨_, rfl⟩

/-- What is to be told comes after what was told, and before what was to be told already. -/
theorem tell_timeline (x : Exchange α) (trace : Option TraceId) (tags : List Value)
    (last : Option (Event α)) (answer : Answer α) :
    (x.tell trace tags last answer).1.timeline =
      x.events ++ (tags.map .done ++ last.toList) ++ x.running.flatMap Frame.agenda := by
  cases tags with
  | cons tag rest => simp [tell, timeline, events, Promise.note, Frame.agenda]
  | nil =>
      cases last with
      | some event => simp [tell, timeline, events, Promise.note, Frame.agenda]
      | none => simp [tell, timeline]

/-- How an exchange over a new promise stands, by the moves that were made. -/
structure Follows (onValue onError : Option Reaction) (moves : List (Move α)) (x : Exchange α) :
    Prop where
  keepsValue : x.promise.onValue = onValue
  keepsError : x.promise.onError = onError
  claimed : x.promise.claimed = moves.any Move.isSet
  future : x.promise.future = Move.decided moves
  /-- Nobody is told before the future is decided. -/
  quiet : Move.decided moves = .pending → x.timeline = []
  /-- Nobody waits once the future is decided. -/
  served : Move.decided moves ≠ .pending → x.promise.waiting = []
  told : (Event.told x.timeline ++ x.promise.waiting).Perm (Move.registered moves)
  calls : Event.calls x.timeline = Event.owed onValue onError (Move.decided moves)
  early : (Move.early moves).Sublist (Event.toldFirst x.timeline ++ x.promise.waiting)

variable {onValue onError : Option Reaction} {moves : List (Move α)} {x : Exchange α}

theorem follows_new (onValue onError : Option Reaction) :
    Follows onValue onError [] (⟨.new onValue onError, []⟩ : Exchange α) := by
  constructor <;> simp [Promise.new, Move.decided, Move.registered, Move.early, timeline, events,
    Event.told, Event.calls, Event.owed]

/-- A move that changes neither the future nor who is told. -/
theorem Follows.idle (h : x.Follows onValue onError moves) {m : Move α} {y : Exchange α}
    (hclaimed : y.promise.claimed = (x.promise.claimed || m.isSet))
    (hrest : { y.promise with claimed := x.promise.claimed, notices := x.promise.notices } =
      x.promise)
    (htimeline : y.timeline = x.timeline) (htag : m.tag? = none)
    (hends : m.ends? = none ∨ Move.decided moves ≠ .pending) :
    y.Follows onValue onError (moves ++ [m]) := by
  have hregistered : Move.registered (moves ++ [m]) = Move.registered moves := by
    simp [Move.registered, htag]
  have hdecided : Move.decided (moves ++ [m]) = Move.decided moves ∧
      Move.early (moves ++ [m]) = Move.early moves := by
    by_cases hpending : Move.decided moves = .pending
    · have hnone : m.ends? = none := hends.resolve_right (absurd hpending)
      rw [Move.decided_append_of_pending hpending, Move.early_append_of_pending hpending, hnone,
        hpending]
      simp [Move.registered, htag]
    · exact ⟨Move.decided_append hpending [m], Move.early_append hpending [m]⟩
  obtain ⟨hdecided, hearly⟩ := hdecided
  have hwaiting : y.promise.waiting = x.promise.waiting := by rw [← hrest]
  exact
    { keepsValue := by rw [← h.keepsValue, ← hrest]
      keepsError := by rw [← h.keepsError, ← hrest]
      claimed := by
        rw [hclaimed, List.any_append, h.claimed]
        simp
      future := by
        rw [hdecided, ← h.future, ← hrest]
      quiet := by rw [hdecided, htimeline]; exact h.quiet
      served := by rw [hdecided, hwaiting]; exact h.served
      told := by rw [hregistered, htimeline, hwaiting]; exact h.told
      calls := by rw [hdecided, htimeline]; exact h.calls
      early := by rw [hearly, htimeline, hwaiting]; exact h.early }

/-- A move that ends a pending future. -/
theorem Follows.close (h : x.Follows onValue onError moves)
    (hpending : Move.decided moves = .pending) {m : Move α} {state : Future α}
    (hends : m.ends? = some state) {last : Option (Event α)}
    (hlast : last.toList = Event.owed onValue onError state) {claimed : Bool}
    (hclaimed : claimed = (x.promise.claimed || m.isSet)) (trace : Option TraceId)
    (answer : Answer α) :
    (Exchange.close { x with promise := { x.promise with claimed } } trace state last
      answer).1.Follows onValue onError (moves ++ [m]) := by
  have hdecided : Move.decided (moves ++ [m]) = state := by
    rw [Move.decided_append_of_pending hpending, hends]
    rfl
  have hstate : state ≠ .pending := by
    rintro rfl
    exact m.ends?_ne_pending hends
  have hregistered : Move.registered [m] = [] := by
    cases m <;> first | rfl | cases hends
  obtain ⟨hevents, hagenda⟩ := List.append_eq_nil_iff.mp (h.quiet hpending)
  obtain ⟨hcalls, htold⟩ := Event.calls_owed onValue onError state
  -- Those who waited are told, and after them the caller's function.
  let opened : Exchange α :=
    { x with promise := { x.promise with claimed, future := state, waiting := [] } }
  obtain ⟨notices, hpromise⟩ := opened.tell_promise trace x.promise.waiting last answer
  have htimeline : (opened.tell trace x.promise.waiting last answer).1.timeline =
      x.promise.waiting.map .done ++ Event.owed onValue onError state := by
    have hopened : opened.events = [] := hevents
    have hrunning : opened.running.flatMap Frame.agenda = [] := hagenda
    rw [tell_timeline, hopened, hrunning, hlast, List.nil_append, List.append_nil]
  have hquiet := h.quiet hpending
  change (opened.tell trace x.promise.waiting last answer).1.Follows _ _ _
  exact
    { keepsValue := by rw [hpromise, ← h.keepsValue]
      keepsError := by rw [hpromise, ← h.keepsError]
      claimed := by
        rw [hpromise, List.any_append, ← h.claimed]
        simp [opened, hclaimed]
      future := by rw [hdecided, hpromise]
      quiet := by
        rw [hdecided]
        exact fun hnot => absurd hnot hstate
      served := by
        rw [hpromise]
        exact fun _ => rfl
      told := by
        have hall := h.told
        rw [hquiet] at hall
        rw [htimeline, hpromise, Event.told_append, Event.told_done, htold, Move.registered_append,
          hregistered]
        simpa [opened, Event.told] using hall
      calls := by rw [hdecided, htimeline, Event.calls_append, Event.calls_done, hcalls,
        List.nil_append]
      early := by
        have hall := h.early
        rw [hquiet] at hall
        rw [htimeline, hpromise, Event.toldFirst_done_append,
          Move.early_append_of_pending hpending, hregistered, List.append_nil]
        refine List.Sublist.trans hall ?_
        simp [opened, Event.toldFirst, Event.told] }

/-- One who is told leaves the timeline as it is. -/
theorem leave_keeps (x : Exchange α) (trace : Option TraceId) (fault : Option Fault) :
    (x.leave trace fault).1.timeline = x.timeline ∧
      ∃ notices, (x.leave trace fault).1.promise = { x.promise with notices } := by
  unfold leave
  split
  · exact ⟨rfl, _, rfl⟩
  · next rest last answer outer hrunning =>
    split
    · refine ⟨?_, tell_promise _ trace rest last answer⟩
      rw [tell_timeline]
      simp [timeline, events, hrunning, Frame.agenda]
    · exact ⟨rfl, _, rfl⟩
  · next outer hrunning =>
    have hsame : (Exchange.mk x.promise outer).timeline = x.timeline := by
      simp [timeline, events, hrunning, Frame.agenda]
    split <;> exact ⟨hsame, _, rfl⟩

/-- A move that sets a result is refused, or fails on a cancelled future, or settles a pending
one. -/
theorem Follows.resolve (h : x.Follows onValue onError moves) {m : Move α} {state : Future α}
    {reaction : Option Reaction} {event : Event α} (hset : m.isSet = true)
    (hends : m.ends? = some state)
    (howed : (reaction.map fun _ => event).toList = Event.owed onValue onError state)
    (trace : Option TraceId) :
    (x.resolve trace state reaction event).1.Follows onValue onError (moves ++ [m]) := by
  have htag : m.tag? = none := by
    cases m <;> first | rfl | cases hset
  unfold Exchange.resolve Promise.claim
  by_cases hclaimed : x.promise.claimed = true
  · have hdecided : Move.decided moves ≠ .pending :=
      Move.decided_ne_pending (h.claimed ▸ hclaimed)
    rw [if_pos hclaimed]
    exact h.idle (by simp [hclaimed]) rfl rfl htag (Or.inr hdecided)
  rw [if_neg hclaimed]
  simp only
  split
  · next hpending =>
    rw [h.future] at hpending
    exact h.close hpending hends howed (by simp [hset]) trace _
  · next hdecided =>
    rw [h.future] at hdecided
    exact h.idle (by simp [hset]) rfl rfl htag (Or.inr hdecided)

/-- One who comes to wait is told at once if the future is decided. -/
theorem Follows.register (h : x.Follows onValue onError moves)
    (hsettled : Move.decided moves ≠ .pending) (trace : Option TraceId) (tag : Value) :
    (x.tell trace [tag] none .registered).1.Follows onValue onError (moves ++ [.onDone tag]) := by
  obtain ⟨notices, hpromise⟩ := x.tell_promise trace [tag] none .registered
  have htimeline : (x.tell trace [tag] none .registered).1.timeline =
      x.events ++ .done tag :: x.running.flatMap Frame.agenda := by
    rw [tell_timeline]
    simp
  have hdecided := Move.decided_append hsettled [.onDone tag]
  have hwaiting := h.served hsettled
  exact
    { keepsValue := by rw [hpromise, ← h.keepsValue]
      keepsError := by rw [hpromise, ← h.keepsError]
      claimed := by
        rw [hpromise, List.any_append, ← h.claimed]
        simp [Move.isSet]
      future := by rw [hdecided, hpromise, ← h.future]
      quiet := by
        rw [hdecided]
        exact fun hpending => absurd hpending hsettled
      served := by
        rw [hpromise]
        exact fun _ => hwaiting
      told := by
        have hall := h.told
        rw [hwaiting, List.append_nil, timeline, Event.told_append] at hall
        rw [hpromise, hwaiting, List.append_nil, htimeline, Event.told_append,
          Move.registered_append]
        exact List.perm_middle.trans ((hall.cons tag).trans (List.perm_append_singleton tag _).symm)
      calls := by
        rw [hdecided, ← h.calls, htimeline, timeline, Event.calls_append, Event.calls_append]
        rfl
      early := by
        have hall := h.early
        rw [hpromise, Move.early_append hsettled, htimeline]
        exact hall.trans ((Event.toldFirst_insert _ tag _).append_right _) }

/-- One who comes to wait for a pending future waits. -/
theorem Follows.wait (h : x.Follows onValue onError moves)
    (hpending : Move.decided moves = .pending) (tag : Value) :
    Follows onValue onError (moves ++ [.onDone tag])
      { x with promise := { x.promise with waiting := x.promise.waiting ++ [tag] } } := by
  have hdecided : Move.decided (moves ++ [.onDone tag]) = .pending := by
    rw [Move.decided_append_of_pending hpending]
    rfl
  exact
    { keepsValue := h.keepsValue
      keepsError := h.keepsError
      claimed := by simpa [Move.isSet] using h.claimed
      future := by rw [hdecided, ← hpending, ← h.future]
      quiet := fun _ => h.quiet hpending
      served := fun hsettled => absurd hdecided hsettled
      told := by
        rw [Move.registered_append, ← List.append_assoc]
        exact h.told.append_right [tag]
      calls := by
        rw [hdecided, ← hpending]
        exact h.calls
      early := by
        rw [Move.early_append_of_pending hpending, ← List.append_assoc]
        exact h.early.append_right [tag] }

/-- Every move keeps what is known of the exchange. -/
theorem Follows.step (h : x.Follows onValue onError moves) (trace : Option TraceId) (m : Move α) :
    (x.step trace m).1.Follows onValue onError (moves ++ [m]) := by
  cases m with
  | setValue a =>
      apply h.resolve rfl rfl
      rw [h.keepsValue]
      cases onValue <;> rfl
  | setError f =>
      apply h.resolve rfl rfl
      rw [h.keepsError]
      cases onError <;> rfl
  | result => exact h.idle (by simp [Exchange.step, Move.isSet]) rfl rfl rfl (Or.inl rfl)
  | cancel =>
      change (x.cancel trace).1.Follows _ _ _
      unfold Exchange.cancel
      split
      · next hpending =>
        have hlast : (none : Option (Event α)).toList = Event.owed onValue onError .cancelled := rfl
        exact h.close (h.future ▸ hpending) (m := .cancel) rfl hlast (by simp [Move.isSet]) trace _
      · next hcancelled =>
        have hsettled : Move.decided moves ≠ .pending := by simp [← h.future, hcancelled]
        exact h.idle (by simp [Move.isSet]) rfl rfl rfl (Or.inr hsettled)
      · next hsettled _ =>
        exact h.idle (by simp [Move.isSet]) rfl rfl rfl (Or.inr (h.future ▸ hsettled))
  | onDone tag =>
      change (x.wait trace tag).1.Follows _ _ _
      unfold Exchange.wait
      split
      · next hpending => exact h.wait (h.future ▸ hpending) tag
      · next hsettled => exact h.register (h.future ▸ hsettled) trace tag
  | leave fault =>
      obtain ⟨htimeline, notices, hpromise⟩ := x.leave_keeps trace fault
      have hsame : (x.step trace (.leave fault)).1 = (x.leave trace fault).1 := rfl
      rw [hsame]
      exact h.idle (by simp [hpromise, Move.isSet]) (by rw [hpromise]) htimeline rfl (Or.inl rfl)

/-- What is known of an exchange over a new promise after any moves. -/
theorem follows_after (onValue onError : Option Reaction) (trace : Option TraceId)
    (moves : List (Move α)) :
    (after onValue onError trace moves).Follows onValue onError moves := by
  induction moves using List.reverseRecOn with
  | nil => exact follows_new onValue onError
  | append_singleton moves m ih =>
      rw [after, run_append]
      exact ih.step trace m

/-! ### Sets that come too late -/

/-- A set on a promise that was set before is refused. -/
theorem step_of_claimed (hclaimed : x.promise.claimed = true) {m : Move α}
    (hset : m.isSet = true) (trace : Option TraceId) :
    x.step trace m = (x, some (.set (.error Promise.alreadyResolved))) := by
  have hclaim : x.promise.claim = .error Promise.alreadyResolved := if_pos hclaimed
  cases m with
  | setValue a => rw [step, resolve, hclaim]
  | setError f => rw [step, resolve, hclaim]
  | result | cancel | onDone | leave => cases hset

/-- The first set on a promise whose future was cancelled fails, and only claims the promise. -/
theorem step_of_cancelled (hclaimed : x.promise.claimed = false)
    (hcancelled : x.promise.future = .cancelled) {m : Move α} (hset : m.isSet = true)
    (trace : Option TraceId) :
    x.step trace m = ({ x with promise := { x.promise with claimed := true } },
      some (.set (fail .invalidState))) := by
  have hclaim : x.promise.claim = .ok { x.promise with claimed := true } :=
    if_neg (by simp [hclaimed])
  cases m with
  | setValue a =>
      rw [step, resolve, hclaim]
      simp only [hcancelled]
  | setError f =>
      rw [step, resolve, hclaim]
      simp only [hcancelled]
  | result | cancel | onDone | leave => cases hset

/-- What a promise comes to by its own operations, an exchange comes to by the same moves.  And this
is how an exchange stands, whatever the holder of the promise, the caller's functions and those who
wait did, in whatever order and within one another.  The first move that set a result or cancelled
decided the future, and nothing changes it afterwards.  Sets after the first are refused and change
nothing; the first one fails on a cancelled future and tells nobody.  The caller's functions are
told what they are owed of the state that the future came to, which is at most one event, and they
have been told it once nobody is being told any more.  Those who wait are never told more than
once, none of them while the future is pending, and all of them once it is not and nobody is being
told any more; those who came before the future was decided are told before the caller's
functions. -/
theorem every_exchange_settles_once (onValue onError : Option Reaction) (trace : Option TraceId) :
    (∀ uses : List (Move α), ∃ moves, moves.filter (!·.isLeave) = uses.filter (!·.isLeave) ∧
      after onValue onError trace moves =
        ⟨uses.foldl (fun p m => (p.use trace m).1) (.new onValue onError), []⟩) ∧
    ∀ moves : List (Move α),
      let x := after onValue onError trace moves
      (x.promise.future = Move.decided moves ∧
        (x.promise.future ≠ .pending → ∀ more,
          (after onValue onError trace (moves ++ more)).promise.future = x.promise.future)) ∧
      (∀ m : Move α, m.isSet = true →
        (moves.any Move.isSet = true →
          x.step trace m = (x, some (.set (.error Promise.alreadyResolved)))) ∧
        (moves.any Move.isSet = false → x.promise.future = .cancelled →
          x.step trace m = ({ x with promise := { x.promise with claimed := true } },
            some (.set (fail .invalidState))))) ∧
      (Event.calls x.events <+: Event.owed onValue onError x.promise.future ∧
        (x.running = [] → Event.calls x.events = Event.owed onValue onError x.promise.future)) ∧
      ((Event.told x.events).Subperm (Move.registered moves) ∧
        (x.promise.future = .pending → Event.told x.events = []) ∧
        (x.promise.future ≠ .pending → x.running = [] →
          (Event.told x.events).Perm (Move.registered moves))) ∧
      ∀ before n later, x.promise.notices = before ++ n :: later → n.event.isCall = true →
        (Move.early moves).Sublist (Event.told (before.map (·.event))) := by
  refine ⟨exists_after_eq_uses onValue onError trace, ?_⟩
  intro moves x
  have h := follows_after onValue onError trace moves
  have hidle (hrunning : x.running = []) : x.timeline = x.events := by
    simp [timeline, hrunning]
  refine ⟨⟨h.future, ?_⟩, ?_, ⟨?_, ?_⟩, ⟨?_, ?_, ?_⟩, ?_⟩
  · intro hsettled more
    rw [h.future] at hsettled
    rw [(follows_after onValue onError trace (moves ++ more)).future,
      Move.decided_append hsettled, ← h.future]
  · intro m hset
    constructor
    · intro hany
      exact step_of_claimed (h.claimed.trans hany) hset trace
    · intro hnone hcancelled
      exact step_of_cancelled (h.claimed.trans hnone) hcancelled hset trace
  · rw [h.future, ← h.calls, timeline, Event.calls_append]
    exact List.prefix_append _ _
  · intro hrunning
    rw [h.future, ← h.calls]
    exact congrArg Event.calls (hidle hrunning).symm
  · have hall := h.told
    rw [timeline, Event.told_append, List.append_assoc] at hall
    exact (List.sublist_append_left _ _).subperm.trans hall.subperm
  · intro hpending
    obtain ⟨hevents, -⟩ := List.append_eq_nil_iff.mp (h.quiet (h.future ▸ hpending))
    exact congrArg Event.told hevents
  · intro hsettled hrunning
    have hall := h.told
    rw [h.served (h.future ▸ hsettled), List.append_nil] at hall
    exact hidle hrunning ▸ hall
  · intro before n later hnotices hcall
    have htimeline : x.timeline = before.map (·.event) ++
        n.event :: (later.map (·.event) ++ x.running.flatMap Frame.agenda) := by
      simp [timeline, events, hnotices]
    have hsettled : Move.decided moves ≠ .pending := by
      intro hpending
      have hquiet : x.timeline = [] := h.quiet hpending
      simp [htimeline] at hquiet
    have hearly : (Move.early moves).Sublist (Event.toldFirst x.timeline ++ x.promise.waiting) :=
      h.early
    rw [h.served hsettled, List.append_nil, htimeline] at hearly
    exact hearly.trans (Event.toldFirst_sublist hcall _ _)

end Exchange

end UsageReport
