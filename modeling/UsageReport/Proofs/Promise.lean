/-
What one attempt to resolve a promise does.  The first one settles it: the future takes the
result, those who wait are told, and the caller's function runs once; however that function
behaves, the promise stays as it was settled.  Every later attempt is refused and changes
nothing.
-/
import UsageReport.Promise

namespace UsageReport

/-- What running the caller's function ends with, if it is run on a promise that is claimed. -/
def Reaction.outcome : Option Reaction → Outcome Unit
  | none | some .accept => .ok ()
  | some (.raise f) => .error f
  | some .again => .error Promise.alreadyResolved

namespace Promise

variable {α : Type} {p : Promise α}

/-- The promise once its future took an end state: those who waited were told, and after them
the caller's function, if there is one, got the event. -/
def settled (p : Promise α) (trace : Option TraceId) (state : Future α)
    (reaction : Option Reaction) (event : Event α) : Promise α :=
  { p with
    claimed := true
    future := state
    waiting := []
    notices := p.notices ++ (p.waiting.map fun tag => ⟨.done tag, trace⟩) ++
      if reaction.isSome then [⟨event, trace⟩] else [] }

theorem react_of_claimed (hclaimed : p.claimed = true) (trace : Option TraceId)
    (reaction : Option Reaction) (event : Event α) :
    p.react trace reaction event =
      ({ p with notices := p.notices ++ if reaction.isSome then [⟨event, trace⟩] else [] },
        Reaction.outcome reaction) := by
  cases reaction with
  | none => simp [react, Reaction.outcome]
  | some r =>
      cases r with
      | accept => rfl
      | raise f => rfl
      | again =>
          have hclaim : (p.note trace event).claim = .error alreadyResolved := by
            rw [claim, if_pos (show (p.note trace event).claimed = true from hclaimed)]
          rw [react, hclaim]
          rfl

/-- The first attempt on a pending future settles the promise, and raises exactly what the
caller's function does. -/
theorem resolve_of_pending (hclaimed : p.claimed = false) (hpending : p.future = .pending)
    (trace : Option TraceId) (state : Future α) (reaction : Option Reaction) (event : Event α) :
    p.resolve trace state reaction event =
      (p.settled trace state reaction event, Reaction.outcome reaction) := by
  have hclaim : p.claim = .ok { p with claimed := true } := by
    rw [claim, if_neg (by simp [hclaimed])]
  rw [resolve, hclaim]
  simp only [hpending]
  rw [react_of_claimed rfl]
  rfl

/-- A later attempt is refused, and changes nothing. -/
theorem resolve_of_claimed (hclaimed : p.claimed = true) (trace : Option TraceId)
    (state : Future α) (reaction : Option Reaction) (event : Event α) :
    p.resolve trace state reaction event = (p, .error alreadyResolved) := by
  rw [resolve, claim, if_pos hclaimed]

end Promise

end UsageReport
