/-
Trace contexts nest.  Where a program has come to, the id that is bound is told by the contexts
around that place alone: it is the text of the innermost id that was given and counts as true, or
else the id bound outside, or else the fresh one that the outermost context made.  Every part of a
program, however it ends, leaves the binding as it found it.
-/
import UsageReport.Proofs.Outcome
import UsageReport.Trace

namespace UsageReport

/-! ### Texts of ids -/

theorem Decimal.scientific_ne_nil (width : Nat) (ds : List Char) (power : Int) :
    scientific width ds power ≠ [] := by
  simp [scientific]

theorem Decimal.positional_ne_nil (ds : List Char) (point : Int) : positional ds point ≠ [] := by
  unfold positional
  split
  · simp
  · split <;> simp

theorem Decimal.Layout.unsigned_ne_nil (layout : Layout) (d : Digits) : layout.unsigned d ≠ [] := by
  simp only [unsigned]
  split
  · exact positional_ne_nil _ _
  · exact scientific_ne_nil _ _ _

theorem Decimal.Layout.write_ne_empty (x : Float) : floatLayout.write x ≠ "" := by
  suffices h : ∀ p, floatLayout.ofParts p ≠ [] by simpa [write] using h _
  rintro (_ | negative | ⟨negative, m, q⟩)
  · decide
  · cases negative <;> decide
  · apply List.append_ne_nil_of_right_ne_nil
    split
    · simp
    · exact unsigned_ne_nil _ _

/-- The text that shows a value's structure is never empty. -/
theorem Value.describe_ne_empty (v : Value) : v.describe ≠ "" := by
  cases v with
  | bool b => cases b <;> simp [describe]
  | int n =>
      cases n <;> simp [describe, ← String.toList_eq_nil_iff, toString, Int.repr,
        Nat.toList_repr, Nat.toDigits_ne_nil]
  | float x =>
      rw [describe]
      exact Decimal.Layout.write_ne_empty x
  | tuple xs =>
      match xs with
      | [] | [_] | _ :: _ :: _ => simp [describe, String.append_eq_empty_iff]
  | set xs => cases xs <;> simp [describe, braces]
  | _ => simp [describe, quoteText, quoteBroken, quoteBytes, braces]

/-- A value that counts as true has a text that is not empty. -/
theorem Value.plain_ne_nil {v : Value} (htruth : v.truth = true) : v.plain ≠ [] := by
  have hpoints {s : String} (h : s ≠ "") : Text.points s ≠ [] := by simpa [Text.points] using h
  cases v with
  | text s => exact hpoints (by simpa [truth] using htruth)
  | broken points => simpa [truth, plain, points?] using htruth
  | _ => exact hpoints (describe_ne_empty _)

theorem freshTrace_ne_nil (n : Nat) : freshTrace n ≠ [] := by
  simp [freshTrace, Text.hexDigits]

namespace TraceProgram

/-- A context around a place in a program: the id that it was given, the state in which it was
entered, and the id that it binds there. -/
structure Context where
  given : Value
  entered : TraceState
  id : TraceId
  resolved : TraceState
  opens : entered.resolve given = .ok (id, resolved)

/-- The state in which the body of a context begins. -/
def Context.inside (c : Context) : TraceState := c.resolved.bind c.id

/-- A context binds the text of what it was given, if that counts as true, or else inherits. -/
theorem Context.id_cases (c : Context) :
    (c.given.truth = true ∧ c.given.written = .ok c.id) ∨
      c.given.truth = false ∧ c.entered.inherit = (c.id, c.resolved) := by
  have hopens := c.opens
  unfold TraceState.resolve at hopens
  split at hopens
  · next htruth =>
    obtain ⟨id, hwritten, heq⟩ := exists_of_map_eq_ok hopens
    have hid : id = c.id := congrArg Prod.fst heq
    exact .inl ⟨htruth, hid ▸ hwritten⟩
  · next htruth => exact .inr ⟨Bool.eq_false_iff.mpr htruth, Except.ok.inj hopens⟩

/-- The id in force inside contexts, the innermost of which is first: the text of the innermost id
given that counts as true, or else the id bound outside, or else the fresh one of the outermost
context. -/
def inForce (outside : Option TraceId) (contexts : List Context) : Option TraceId :=
  match contexts.find? (·.given.truth) with
  | some c => c.given.written.toOption
  | none => outside.or (contexts.getLast?.map (·.entered.fresh.1))

/-- A run that begins in a state, with nodes to run, comes inside the contexts given to another
state, with the nodes that are left of the body it is in. -/
inductive Reaches : TraceState → List TraceProgram → List Context → TraceState →
    List TraceProgram → Prop
  | here {s : TraceState} {nodes : List TraceProgram} : Reaches s nodes [] s nodes
  | after {s u : TraceState} {node : TraceProgram} {rest next : List TraceProgram}
      {contexts : List Context} : (run s node).raised = none →
      Reaches (run s node).state rest contexts u next → Reaches s (node :: rest) contexts u next
  | within {c : Context} {u : TraceState} {body rest next : List TraceProgram}
      {contexts : List Context} : Reaches c.inside body contexts u next →
      Reaches c.entered (.enter c.given body :: rest) (contexts ++ [c]) u next
  | attempted {s u : TraceState} {body rest next : List TraceProgram} {contexts : List Context} :
      Reaches s body contexts u next → Reaches s (.attempt body :: rest) contexts u next

variable {s u : TraceState} {node : TraceProgram} {nodes body rest next : List TraceProgram}
  {contexts : List Context} {given : Value}

/-! ### What one node does -/

theorem run_enter (c : Context) (body : List TraceProgram) :
    run c.entered (.enter c.given body) =
      ⟨(runAll c.inside body).state.restore c.entered,
        .enter c.id :: (runAll c.inside body).events ++
          (if (runAll c.inside body).raised.isNone then [.exit c.entered.bound] else []),
        (runAll c.inside body).raised⟩ := by
  have hinside : c.resolved.bind c.id = c.inside := rfl
  simp only [run, c.opens, hinside]
  cases (runAll c.inside body).raised with
  | none => rfl
  | some f => simp

/-- An id that counts as true and has no text is raised about before anything is bound. -/
theorem run_enter_untold (htruth : given.truth = true) (htext : given.hasText = false) :
    run s (.enter given body) = ⟨s, [], some (.failed .tooLongToWrite)⟩ := by
  have hfail : s.resolve given = .error .tooLongToWrite := by
    rw [TraceState.resolve, if_pos htruth, Value.written_eq_error_iff.mpr ⟨htext, rfl⟩]
    rfl
  rw [run, hfail]

/-- A node that binds an id either opens a context, or is raised about and binds none. -/
theorem enter_cases (s : TraceState) (given : Value) :
    (∃ c : Context, c.given = given ∧ c.entered = s) ∨
      given.truth = true ∧ given.hasText = false := by
  cases hresolved : s.resolve given with
  | ok bound => exact .inl ⟨⟨given, s, bound.1, bound.2, hresolved⟩, rfl, rfl⟩
  | error failure =>
      unfold TraceState.resolve at hresolved
      split at hresolved
      · next htruth =>
        cases hwritten : given.written with
        | ok id => simp [hwritten, Except.map] at hresolved
        | error failure => exact .inr ⟨htruth, (Value.written_eq_error_iff.mp hwritten).1⟩
      · cases hresolved

theorem run_attempt (s : TraceState) (body : List TraceProgram) :
    run s (.attempt body) =
      ⟨(runAll s body).state,
        (runAll s body).events ++ (runAll s body).raised.toList.map (.caught ·.className),
        none⟩ := by
  cases hrun : runAll s body with
  | mk state events raised => cases raised <;> simp [run, hrun]

theorem runAll_cons_of_raised {f : Fault} (hraised : (run s node).raised = some f) :
    runAll s (node :: rest) = run s node := by
  rw [runAll, hraised]

theorem runAll_cons_of_not_raised (hraised : (run s node).raised = none) :
    runAll s (node :: rest) =
      ⟨(runAll (run s node).state rest).state,
        (run s node).events ++ (runAll (run s node).state rest).events,
        (runAll (run s node).state rest).raised⟩ := by
  rw [runAll, hraised]

mutual

/-- A node leaves the binding as it found it, however it ends. -/
theorem run_bound (s : TraceState) : (node : TraceProgram) → (run s node).state.bound = s.bound
  | .current _ | .fresh | .raise _ => rfl
  | .enter given body => by
      obtain ⟨c, rfl, rfl⟩ | ⟨htruth, htext⟩ := enter_cases s given
      · rw [run_enter]
        rfl
      · rw [run_enter_untold htruth htext]
  | .attempt body => by
      rw [run_attempt]
      exact runAll_bound s body

theorem runAll_bound (s : TraceState) :
    (nodes : List TraceProgram) → (runAll s nodes).state.bound = s.bound
  | [] => rfl
  | node :: rest => by
      cases hraised : (run s node).raised with
      | none =>
          rw [runAll_cons_of_not_raised hraised]
          exact (runAll_bound _ rest).trans (run_bound s node)
      | some f =>
          rw [runAll_cons_of_raised hraised]
          exact run_bound s node

end

/-! ### The id in force -/

/-- A context adds its own id below the ids that the contexts inside it were given. -/
theorem inForce_inside (c : Context) (contexts : List Context) :
    inForce c.inside.bound contexts = inForce c.entered.bound (contexts ++ [c]) := by
  unfold inForce
  rw [List.find?_append]
  cases contexts.find? (·.given.truth) with
  | some d => rfl
  | none =>
      rcases c.id_cases with ⟨htruth, hwritten⟩ | ⟨htruth, hinherit⟩
      · simp [Context.inside, TraceState.bind, htruth, hwritten, Except.toOption]
      · unfold TraceState.inherit at hinherit
        cases hbound : c.entered.bound with
        | none =>
            rw [hbound] at hinherit
            simp [Context.inside, TraceState.bind, htruth, hinherit]
        | some id =>
            rw [hbound] at hinherit
            have hid : id = c.id := congrArg Prod.fst hinherit
            simp [Context.inside, TraceState.bind, htruth, hid]

theorem inForce_isSome (hne : contexts ≠ []) (outside : Option TraceId) :
    (inForce outside contexts).isSome := by
  unfold inForce
  split
  · next c hfind =>
    have htruth : c.given.truth = true := by simpa using List.find?_some hfind
    rcases c.id_cases with ⟨-, hwritten⟩ | ⟨hfalse, -⟩
    · simp [hwritten, Except.toOption]
    · simp [htruth] at hfalse
  · simp [Option.isSome_or, List.getLast?_isSome, hne]

theorem inForce_ne_empty {outside : Option TraceId} (houtside : outside ≠ some []) :
    inForce outside contexts ≠ some [] := by
  unfold inForce
  split
  · next c hfind =>
    have htruth : c.given.truth = true := by simpa using List.find?_some hfind
    cases hwritten : c.given.written with
    | error failure => simp [Except.toOption]
    | ok id =>
        obtain ⟨-, rfl⟩ := Value.written_eq_ok_iff.mp hwritten
        simpa [Except.toOption] using Value.plain_ne_nil htruth
  · cases outside with
    | some id => exact houtside
    | none => simp [TraceState.fresh, freshTrace_ne_nil]

/-- Where a run comes to, the id that is bound is the one in force. -/
theorem Reaches.bound (h : Reaches s nodes contexts u next) :
    u.bound = inForce s.bound contexts := by
  induction h with
  | here => simp [inForce]
  | after _ _ ih => rw [ih, run_bound]
  -- The context that the run enters first is the outermost of those around the place.
  | within _ ih => rw [ih, inForce_inside]
  | attempted _ ih => exact ih

/-! ### What a run shows -/

theorem current_of_bound {bound : Option TraceId} (h : u.bound = bound) (otherwise : Value) :
    u.current otherwise = (bound.map .ofPoints).getD otherwise := by
  subst h
  unfold TraceState.current
  cases u.bound <;> rfl

theorem runAll_starts_with_run (s : TraceState) (node : TraceProgram) (rest : List TraceProgram) :
    (run s node).events <+: (runAll s (node :: rest)).events := by
  cases hraised : (run s node).raised with
  | none =>
      rw [runAll_cons_of_not_raised hraised]
      exact List.prefix_append _ _
  | some f =>
      have hall : runAll s (node :: rest) = run s node := runAll_cons_of_raised hraised
      exact hall ▸ List.prefix_rfl

/-- What a node shows where a run comes to it is part of what the run shows. -/
theorem Reaches.events_infix (h : Reaches s nodes contexts u (node :: rest)) :
    (run u node).events <:+: (runAll s nodes).events := by
  generalize hnext : node :: rest = next at h
  induction h with
  | here =>
      subst hnext
      exact (runAll_starts_with_run _ node rest).isInfix
  | after hraised _ ih =>
      rw [runAll_cons_of_not_raised hraised]
      exact (ih hnext).trans (List.suffix_append _ _).isInfix
  | within _ ih =>
      refine ((ih hnext).trans ?_).trans (runAll_starts_with_run _ _ _).isInfix
      rw [run_enter]
      exact List.infix_append [_] _ _
  | attempted _ ih =>
      refine ((ih hnext).trans ?_).trans (runAll_starts_with_run _ _ _).isInfix
      rw [run_attempt]
      exact (List.prefix_append _ _).isInfix

mutual

/-- A node shows no id but those read where a run through it comes. -/
theorem reaches_of_current_mem {v : Value} (s : TraceState) (rest : List TraceProgram) :
    (node : TraceProgram) → .current v ∈ (run s node).events →
      ∃ contexts u otherwise next,
        Reaches s (node :: rest) contexts u (.current otherwise :: next) ∧ v = u.current otherwise
  | .current otherwise, h => by
      refine ⟨[], s, otherwise, rest, .here, ?_⟩
      simpa [run] using h
  | .fresh, h => by simp [run] at h
  | .raise _, h => by simp [run] at h
  | .enter given body, h => by
      obtain ⟨c, rfl, rfl⟩ | ⟨htruth, htext⟩ := enter_cases s given
      · have hmem : .current v ∈ (runAll c.inside body).events := by
          rw [run_enter] at h
          simpa using h
        obtain ⟨contexts, u, otherwise, next, hreaches, hv⟩ :=
          reaches_of_current_mem_all _ body hmem
        exact ⟨_, u, otherwise, next, .within hreaches, hv⟩
      · simp [run_enter_untold htruth htext] at h
  | .attempt body, h => by
      have hmem : .current v ∈ (runAll s body).events := by
        rw [run_attempt] at h
        simpa using h
      obtain ⟨contexts, u, otherwise, next, hreaches, hv⟩ := reaches_of_current_mem_all _ body hmem
      exact ⟨_, u, otherwise, next, .attempted hreaches, hv⟩

theorem reaches_of_current_mem_all {v : Value} (s : TraceState) :
    (nodes : List TraceProgram) → .current v ∈ (runAll s nodes).events →
      ∃ contexts u otherwise next,
        Reaches s nodes contexts u (.current otherwise :: next) ∧ v = u.current otherwise
  | [], h => by simp [runAll] at h
  | node :: rest, h => by
      cases hraised : (run s node).raised with
      | some f =>
          rw [runAll_cons_of_raised hraised] at h
          exact reaches_of_current_mem s rest node h
      | none =>
          rw [runAll_cons_of_not_raised hraised, List.mem_append] at h
          cases h with
          | inl h => exact reaches_of_current_mem s rest node h
          | inr h =>
              obtain ⟨contexts, u, otherwise, next, hreaches, hv⟩ :=
                reaches_of_current_mem_all _ rest h
              exact ⟨_, u, otherwise, next, .after hraised hreaches, hv⟩

end

/-! ### Contexts nest -/

/-- Trace contexts nest.  Wherever a run comes to, the id that is bound is the one in force inside
the contexts around that place.  It is not empty, and inside a context there always is one.
Whatever node stands there shows its part of the run and leaves the binding as it was, however it
ends; if it gives an id that counts as true and has no text, that is raised about and nothing is
bound.  An id is read exactly where a run comes to read it, and it is the one in force there, or
the value given if none is.  The whole run leaves the binding as it was. -/
theorem contexts_nest (s : TraceState) (hs : s.bound ≠ some []) (nodes : List TraceProgram) :
    (∀ contexts u next, Reaches s nodes contexts u next →
      u.bound = inForce s.bound contexts ∧
      (contexts ≠ [] → u.bound.isSome) ∧
      u.bound ≠ some [] ∧
      ∀ node rest, next = node :: rest →
        (run u node).events <:+: (runAll s nodes).events ∧
        (run u node).state.bound = u.bound ∧
        ∀ given body, node = .enter given body → given.truth = true → given.hasText = false →
          run u node = ⟨u, [], some (.failed .tooLongToWrite)⟩) ∧
    (∀ id, .current id ∈ (runAll s nodes).events ↔
      ∃ contexts u otherwise rest, Reaches s nodes contexts u (.current otherwise :: rest) ∧
        id = ((inForce s.bound contexts).map .ofPoints).getD otherwise) ∧
    (runAll s nodes).state.bound = s.bound := by
  refine ⟨fun contexts u next h => ?_, fun id => ⟨fun hmem => ?_, ?_⟩, runAll_bound s nodes⟩
  · refine ⟨h.bound, fun hne => ?_, ?_, ?_⟩
    · rw [h.bound]
      exact inForce_isSome hne s.bound
    · rw [h.bound]
      exact inForce_ne_empty hs
    · rintro node rest rfl
      refine ⟨h.events_infix, run_bound u node, ?_⟩
      rintro given body rfl htruth htext
      exact run_enter_untold htruth htext
  · obtain ⟨contexts, u, otherwise, rest, hreaches, rfl⟩ := reaches_of_current_mem_all s nodes hmem
    exact ⟨contexts, u, otherwise, rest, hreaches, current_of_bound hreaches.bound otherwise⟩
  · rintro ⟨contexts, u, otherwise, rest, hreaches, rfl⟩
    rw [← current_of_bound hreaches.bound otherwise]
    exact hreaches.events_infix.subset (List.mem_singleton.mpr rfl)

/-- A fault leaves two contexts and is caught.  Behind it no id is bound, so the next context makes
a fresh one, which the context inside it keeps. -/
theorem contexts_nest_sample :
    let f : Fault := .raised "ValueError" []
    let outer := Text.points "outer"
    let inner : TraceProgram := .enter (.text "") [.current .null, .raise f]
    let later : TraceProgram := .enter .null [.enter (.int 0) [.current .null]]
    let nodes := [.attempt [.enter (.text "outer") [inner]], .current (.text "none"), later]
    let s := TraceState.initial
    let bound : TraceState := ⟨some outer, 0⟩
    let new : TraceState := ⟨some (freshTrace 0), 1⟩
    let first : Context := ⟨.text "outer", s, outer, s, rfl⟩
    let around : List Context := [⟨.text "", bound, outer, bound, rfl⟩, first]
    let second : Context := ⟨.null, s, freshTrace 0, ⟨none, 1⟩, rfl⟩
    let around' : List Context := [⟨.int 0, new, freshTrace 0, new, rfl⟩, second]
    s.bound ≠ some [] ∧
      Reaches s nodes around bound [.current .null, .raise f] ∧
      bound.bound = inForce s.bound around ∧
      Reaches s nodes around' new [.current .null] ∧
      new.bound = inForce s.bound around' ∧ new.bound ≠ some [] ∧
      .current (.text "outer") ∈ (runAll s nodes).events ∧
      (runAll s nodes).state.bound = none := by
  intro f outer inner later nodes s bound new first around second around'
  have hs : s.bound ≠ some [] := by decide
  have hinner : Reaches s nodes around bound [.current .null, .raise f] :=
    .attempted (.within (c := first) (.within (c := ⟨.text "", bound, outer, bound, rfl⟩) .here))
  have hlater : Reaches s nodes around' new [.current .null] :=
    .after rfl (.after rfl (.within (c := second)
      (.within (c := ⟨.int 0, new, freshTrace 0, new, rfl⟩) .here)))
  obtain ⟨hplaces, hread, hend⟩ := contexts_nest s hs nodes
  obtain ⟨hbound, -⟩ := hplaces _ _ _ hinner
  obtain ⟨hnew, -, hfull, -⟩ := hplaces _ _ _ hlater
  refine ⟨hs, hinner, hbound, hlater, hnew, hfull, (hread _).mpr ?_, hend⟩
  exact ⟨_, bound, .null, [.raise f], hinner, by rw [← hbound]; rfl⟩

end TraceProgram

end UsageReport
