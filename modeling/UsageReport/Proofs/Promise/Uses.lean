/-
The operations of promises as exchanges.  An operation tells all who wait in one piece, and the
caller's function reacts as it is set to.  In moves, those who are told leave as soon as they have
taken note; so what holds of every exchange holds of every use of a promise.
-/
import Mathlib.Data.List.Induction
import UsageReport.Promise.Exchange

namespace UsageReport

variable {α : Type}

/-- Whether a move is the leave of one who was told. -/
def Move.isLeave : Move α → Bool
  | .leave _ => true
  | _ => false

/-- A use of a promise whose functions react as they are set to, while those who wait only take
note. -/
def Promise.use (p : Promise α) (trace : Option TraceId) :
    Move α → Promise α × Option (Answer α)
  | .setValue a => ((p.setValue trace a).1, some (.set (p.setValue trace a).2))
  | .setError f => ((p.setError trace f).1, some (.set (p.setError trace f).2))
  | .result => (p, some (.result p.result))
  | .cancel => ((p.cancel trace).1, some (.cancel (p.cancel trace).2))
  | .onDone tag => (p.onDone trace tag, some .registered)
  | .leave _ => (p, none)

namespace Exchange

variable {x : Exchange α} {trace : Option TraceId} {s s' s'' : Exchange α × Option (Answer α)}

theorem run_append (trace : Option TraceId) (s : Exchange α × Option (Answer α))
    (moves more : List (Move α)) :
    run trace s (moves ++ more) = run trace (run trace s moves) more := List.foldl_append

/-- It comes from the first to the second when those who are told leave, one after the other. -/
def Settles (trace : Option TraceId) (s s' : Exchange α × Option (Answer α)) : Prop :=
  ∃ leaves : List (Option Fault), run trace s (leaves.map .leave) = s'

namespace Settles

theorem refl (s : Exchange α × Option (Answer α)) : Settles trace s s := ⟨[], rfl⟩

theorem trans (h : Settles trace s s') (h' : Settles trace s' s'') : Settles trace s s'' := by
  obtain ⟨leaves, rfl⟩ := h
  obtain ⟨more, rfl⟩ := h'
  refine ⟨leaves ++ more, ?_⟩
  rw [List.map_append, run_append]

end Settles

/-- If those who wait leave as soon as they are told, it is the turn of the caller's function. -/
theorem tell_settles (x : Exchange α) (trace : Option TraceId) (tags : List Value)
    (last : Option (Event α)) (answer : Answer α) :
    Settles trace (x.tell trace tags last answer)
      (tell { x with promise := { x.promise with
        notices := x.promise.notices ++ tags.map fun tag => ⟨.done tag, trace⟩ } }
        trace [] last answer) := by
  induction tags generalizing x with
  | nil =>
      rw [List.map_nil, List.append_nil]
      exact .refl _
  | cons tag rest ih =>
      obtain ⟨leaves, hleaves⟩ := ih { x with promise := x.promise.note trace (.done tag) }
      rw [Promise.note, List.append_assoc] at hleaves
      exact ⟨none :: leaves, hleaves⟩

/-- The caller's function reacts as it is set to. -/
theorem react_settles (hclaimed : x.promise.claimed = true) (trace : Option TraceId)
    (reaction : Option Reaction) (event : Event α) :
    Settles trace (x.tell trace [] (reaction.map fun _ => event) (.set (.ok ())))
      (⟨(x.promise.react trace reaction event).1, x.running⟩,
        some (.set (x.promise.react trace reaction event).2)) := by
  cases reaction with
  | none => exact .refl _
  | some r =>
      cases r with
      | accept => exact ⟨[none], rfl⟩
      | raise f => exact ⟨[some f], rfl⟩
      | again =>
          -- Setting the promise again comes to nothing but the refusal.
          have hagain : (x.promise.note trace event).claim = .error Promise.alreadyResolved :=
            if_pos hclaimed
          refine ⟨[some Promise.alreadyResolved], ?_⟩
          simp [run, tell, step, Exchange.leave, Promise.react, hagain]

theorem resolve_settles (p : Promise α) (trace : Option TraceId) (state : Future α)
    (reaction : Option Reaction) (event : Event α) :
    Settles trace (resolve ⟨p, []⟩ trace state reaction event)
      (⟨(p.resolve trace state reaction event).1, []⟩,
        some (.set (p.resolve trace state reaction event).2)) := by
  unfold resolve Promise.resolve Promise.claim
  by_cases hclaimed : p.claimed = true
  · rw [if_pos hclaimed]
    exact .refl _
  rw [if_neg hclaimed]
  simp only
  cases hfuture : p.future with
  | cancelled | value | error => exact .refl _
  | pending =>
      let claimed : Promise α := { p with claimed := true, future := state }
      have htold := tell_settles ⟨{ claimed with waiting := [] }, []⟩ trace p.waiting
        (reaction.map fun _ => event) (.set (.ok ()))
      exact htold.trans (react_settles (x := ⟨claimed.tellWaiting trace, []⟩) rfl trace _ _)

/-- After every use, those who are told leave, and nobody is being told any more. -/
theorem use_settles (p : Promise α) (trace : Option TraceId) (m : Move α) :
    Settles trace (step ⟨p, []⟩ trace m) (⟨(p.use trace m).1, []⟩, (p.use trace m).2) := by
  cases m with
  | setValue a => exact resolve_settles p trace (.value a) p.onValue (.value a)
  | setError f => exact resolve_settles p trace (.error f) p.onError (.error f)
  | result => exact .refl _
  | leave fault => exact .refl _
  | cancel =>
      unfold step cancel Promise.use Promise.cancel
      cases hfuture : p.future with
      | cancelled | value | error => exact .refl _
      | pending =>
          exact tell_settles ⟨{ p with future := .cancelled, waiting := [] }, []⟩ trace p.waiting
            none (.cancel true)
  | onDone tag =>
      by_cases hpending : p.future = .pending
      · refine ⟨[], ?_⟩
        simp [run, step, wait, Promise.use, Promise.onDone, hpending]
      · -- Whoever comes late is told at once, and leaves.
        refine ⟨[none], ?_⟩
        simp [run, step, wait, tell, leave, Promise.use, Promise.onDone]

/-- Whatever a promise comes to by its own operations, an exchange comes to by the same moves and
leaves between them. -/
theorem exists_after_eq_uses (onValue onError : Option Reaction) (trace : Option TraceId)
    (uses : List (Move α)) :
    ∃ moves, moves.filter (!·.isLeave) = uses.filter (!·.isLeave) ∧
      after onValue onError trace moves =
        ⟨uses.foldl (fun p m => (p.use trace m).1) (.new onValue onError), []⟩ := by
  induction uses using List.reverseRecOn with
  | nil => exact ⟨[], rfl, rfl⟩
  | append_singleton uses m ih =>
      obtain ⟨moves, hsame, hmoves⟩ := ih
      obtain ⟨leaves, hleaves⟩ := use_settles
        (uses.foldl (fun p m => (p.use trace m).1) (.new onValue onError)) trace m
      refine ⟨moves ++ m :: leaves.map .leave, ?_, ?_⟩
      · have hnone : (leaves.map Move.leave).filter (!·.isLeave) = ([] : List (Move α)) := by
          simp [Move.isLeave]
        rw [List.filter_append, List.filter_append, hsame, ← List.singleton_append,
          List.filter_append, hnone, List.append_nil]
      · have hrun : after onValue onError trace (moves ++ m :: leaves.map .leave) =
            (run trace ((after onValue onError trace moves).step trace m)
              (leaves.map .leave)).1 := by
          rw [after, run_append]
          rfl
        rw [hrun, hmoves, hleaves, List.foldl_append]
        rfl

end Exchange

end UsageReport
