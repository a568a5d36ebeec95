/-
What providers deliver.  The deliveries of a registry are the answers of its providers, called
once each and in order.  A delivery costs its provider the entry if the call raised, if a piece
is no text, or, where pieces are checked, if their text is refused; the first of these that
applies is the mishap that is told.
-/
import UsageReport.Assembly
import UsageReport.Provider.Script

namespace UsageReport

open Text (CodePoint)

/-- What is noted of a call of the entry's provider. -/
def Entry.record (e : Entry) (full : Value) : CallRecord :=
  ⟨e.provider.identity, if e.provider.acceptsFull then some full else none⟩

/-- What the entry's provider answers after earlier calls.  It is told how often it was called, the
wish for details if it takes it, and the trace. -/
def Entry.collect (e : Entry) (calls : List CallRecord) (full : Value) (trace : Option TraceId) :
    Delivery :=
  e.provider.behave ⟨callCount calls e.provider.identity + 1,
    if e.provider.acceptsFull then some full else none, trace⟩

/-- What the providers of entries deliver when they are called in order after earlier calls. -/
def deliveries (full : Value) (trace : Option TraceId) :
    List CallRecord → List Entry → List (Entry × Delivery)
  | _, [] => []
  | calls, e :: rest =>
    (e, e.collect calls full trace) :: deliveries full trace (calls ++ [e.record full]) rest

/-- What the providers of a registry deliver in a world. -/
def Registry.deliveries (r : Registry) (w : World) (full : Value) : List (Entry × Delivery) :=
  UsageReport.deliveries full w.traces.bound w.calls r.entries

/-- The provider raises nothing but ordinary faults, whatever the call. -/
def Provider.IsOrdinary (p : Provider) : Prop :=
  ∀ call f, (p.behave call).fault = some f → f.isCatchable = true

/-- All providers of the registry are ordinary. -/
def Registry.IsOrdinary (r : Registry) : Prop := ∀ e ∈ r.entries, e.provider.IsOrdinary

section Deliveries

variable {full : Value} {trace : Option TraceId}

/-- Every entry delivers once, in order. -/
theorem deliveries_map_fst (full : Value) (trace : Option TraceId) (calls : List CallRecord)
    (entries : List Entry) :
    (deliveries full trace calls entries).map (·.1) = entries := by
  induction entries generalizing calls with
  | nil => rfl
  | cons e rest ih => rw [deliveries, List.map_cons, ih]

theorem length_deliveries (full : Value) (trace : Option TraceId) (calls : List CallRecord)
    (entries : List Entry) : (deliveries full trace calls entries).length = entries.length := by
  rw [← List.length_map (·.1), deliveries_map_fst]

theorem Registry.deliveries_map_fst (r : Registry) (w : World) (full : Value) :
    (r.deliveries w full).map (·.1) = r.entries :=
  UsageReport.deliveries_map_fst full w.traces.bound w.calls r.entries

theorem deliveries_append (calls : List CallRecord) (before after : List Entry) :
    deliveries full trace calls (before ++ after) =
      deliveries full trace calls before ++
        deliveries full trace (calls ++ before.map (·.record full)) after := by
  induction before generalizing calls with
  | nil => simp [deliveries]
  | cons e rest ih => simp [deliveries, ih]

/-- The provider of every entry is called once the ones before it were, and answers that call. -/
theorem getElem?_deliveries (calls : List CallRecord) (before : List Entry) (e : Entry)
    (after : List Entry) :
    (deliveries full trace calls (before ++ e :: after))[before.length]? =
      some (e, e.collect (calls ++ before.map (·.record full)) full trace) := by
  have hlength := length_deliveries full trace calls before
  rw [deliveries_append, List.getElem?_append_right (Nat.le_of_eq hlength), hlength, Nat.sub_self,
    deliveries, List.getElem?_cons_zero]

theorem Entry.fault_isCatchable {e : Entry} (hordinary : e.provider.IsOrdinary)
    {calls : List CallRecord} {f : Fault} (h : (e.collect calls full trace).fault = some f) :
    f.isCatchable = true :=
  hordinary _ f h

end Deliveries

namespace Delivery

variable {settings : Settings} {d : Delivery} {f : Fault}

/-- The texts among the pieces of a delivery. -/
def texts (d : Delivery) : List (List CodePoint) := d.pieces.filterMap Value.points?

/-- The texts of a delivery put together. -/
def text (d : Delivery) : List CodePoint := d.texts.flatten

/-- Whether a delivery costs its provider the entry. -/
def fails (settings : Settings) (d : Delivery) : Bool :=
  d.fault.isSome || d.pieces.any (fun v => v.points?.isNone) ||
    (settings.validateFragments && !(checkFragmentText d.text).isOk)

/-- What is wrong with a delivery: the fault that ended the call, or the first piece that is
no text, or what the check says. -/
def mishap (settings : Settings) (d : Delivery) : Option Fault :=
  match d.fault with
  | some f => some f
  | none =>
    match d.pieces.find? (fun v => v.points?.isNone) with
    | some v => some (.failed (.fragmentKind v.kindName))
    | none =>
      if settings.validateFragments then
        match checkFragmentText d.text with
        | .ok () => none
        | .error failure => some (.failed failure)
      else none

/-- A delivery fails exactly if something is wrong with it. -/
theorem fails_eq_isSome_mishap (settings : Settings) (d : Delivery) :
    d.fails settings = (d.mishap settings).isSome := by
  unfold fails mishap
  cases d.fault with
  | some f => rfl
  | none =>
      cases hfind : d.pieces.find? (fun v => v.points?.isNone) with
      | some v =>
          have hv := List.find?_some hfind
          have hany : d.pieces.any (fun v => v.points?.isNone) = true :=
            List.any_eq_true.mpr ⟨v, List.mem_of_find?_eq_some hfind, hv⟩
          simp [hany]
      | none =>
          have hnone : d.pieces.any (fun v => v.points?.isNone) = false :=
            List.any_eq_false.mpr (List.find?_eq_none.mp hfind)
          rw [hnone]
          cases settings.validateFragments with
          | false => rfl
          | true => cases checkFragmentText d.text <;> rfl

theorem mishap_eq_none (h : d.fails settings = false) : d.mishap settings = none := by
  rw [fails_eq_isSome_mishap] at h
  exact Option.isNone_iff_eq_none.mp (Option.isSome_eq_false_iff.mp h)

theorem exists_mishap (h : d.fails settings = true) : ∃ f, d.mishap settings = some f := by
  rw [fails_eq_isSome_mishap] at h
  exact Option.isSome_iff_exists.mp h

/-- The check of a fragment ends in ordinary failures only. -/
theorem checkFragmentText_isCatchable {cs : List CodePoint} {failure : Failure}
    (h : checkFragmentText cs = .error failure) : (Fault.failed failure).isCatchable = true := by
  unfold checkFragmentText at h
  split at h <;> cases h <;> rfl

/-- Where the call raised an ordinary fault, if any, the mishap is ordinary too. -/
theorem mishap_isCatchable (hfault : ∀ f, d.fault = some f → f.isCatchable = true)
    (h : d.mishap settings = some f) : f.isCatchable = true := by
  unfold mishap at h
  split at h
  · next f' hf' =>
    cases h
    exact hfault f hf'
  · split at h
    · cases h
      rfl
    · split at h
      · split at h
        · cases h
        · next failure hcheck =>
          cases h
          exact checkFragmentText_isCatchable hcheck
      · cases h

end Delivery

namespace Assembly

/-- An entry is noted, and comes to what its provider answered, if that is usable. -/
theorem collect_eq (settings : Settings) (sink : Sink) (full : Value) (w : World) (e : Entry) :
    collect settings sink full w e =
      let called := w.noteCall (e.record full)
      match usable settings (e.collect w.calls full w.traces.bound) with
      | .ok texts => (called, .ok (some texts))
      | .error f =>
        if !f.isCatchable then (called, .error f)
        else if settings.isolateFaults then (tellFault sink called e.name f, .ok none)
        else (called, .error (abortion e.name f)) :=
  rfl

theorem textPieces_eq (d : Delivery) :
    textPieces d.pieces =
      match d.pieces.find? (fun v => v.points?.isNone) with
      | some v => .error (.fragmentKind v.kindName)
      | none => .ok d.texts := by
  unfold Delivery.texts
  induction d.pieces with
  | nil => rfl
  | cons v rest ih =>
      cases hv : v.points? with
      | none => simp [textPieces, hv]
      | some points =>
          simp only [textPieces, hv, ih, List.find?_cons, Option.isNone_some,
            List.filterMap_cons]
          cases rest.find? (fun v => v.points?.isNone) <;> rfl

/-- The pieces that go into the report are the texts of a delivery with which nothing is
wrong. -/
theorem usable_eq (settings : Settings) (d : Delivery) :
    usable settings d =
      match d.mishap settings with
      | some f => .error f
      | none => .ok d.texts := by
  unfold usable Delivery.mishap
  rw [textPieces_eq]
  cases d.fault with
  | some f => rfl
  | none =>
      cases d.pieces.find? (fun v => v.points?.isNone) with
      | some v => rfl
      | none =>
          cases hvalidate : settings.validateFragments with
          | false => simp
          | true =>
              simp only [if_true, Delivery.text]
              cases checkFragmentText d.texts.flatten <;> rfl

theorem usable_of_mishap {settings : Settings} {d : Delivery} {f : Fault}
    (h : d.mishap settings = some f) : usable settings d = .error f := by
  rw [usable_eq, h]

theorem usable_of_not_fails {settings : Settings} {d : Delivery}
    (h : d.fails settings = false) : usable settings d = .ok d.texts := by
  rw [usable_eq, Delivery.mishap_eq_none h]

end Assembly

/-! ### Registries to try things on -/

/-- Three providers: one that describes itself, one that raises, and one that appends no
text. -/
def Registry.sample : Registry where
  entries := [
    ⟨⟨Text.points "files", by decide, by decide⟩,
      scripted 0 .takesFull [.emit (.text "\"open\":"), .emit (.text "2")]⟩,
    ⟨⟨Text.points "users", by decide, by decide⟩,
      scripted 1 .plain [.emit (.text "\"known\":"), .raise (.raised "ValueError" []) none]⟩,
    ⟨⟨Text.points "chats", by decide, by decide⟩, scripted 2 .takesFull [.emit (.int 7)]⟩]
  names_nodup := by decide
  callable := by
    intro e he
    simp only [List.mem_cons, List.not_mem_nil, or_false] at he
    rcases he with rfl | rfl | rfl <;> rfl

theorem Registry.sample_isOrdinary : Registry.sample.IsOrdinary := by
  intro e he call f hf
  simp only [Registry.sample, List.mem_cons, List.not_mem_nil, or_false] at he
  rcases he with rfl | rfl | rfl
  · cases hf
  · cases hf
    rfl
  · cases hf

/-- One provider, which raises the fault given. -/
def Registry.raising (f : Fault) : Registry where
  entries := [⟨⟨Text.points "users", by decide, by decide⟩,
    scripted 0 .takesFull [.raise f none]⟩]
  names_nodup := List.pairwise_singleton _ _
  callable := by
    intro e he
    rw [List.mem_singleton.mp he]
    rfl

theorem Registry.raising_isOrdinary {f : Fault} (h : f.isCatchable = true) :
    (Registry.raising f).IsOrdinary := by
  intro e he call raised hraised
  rw [List.mem_singleton.mp he] at hraised
  cases hraised
  exact h

/-- A world in which nothing happened yet. -/
def World.fresh : World :=
  { files := .empty, metrics := .new 200, calls := [], log := [], traces := .initial
    clock := ⟨"", 0.0⟩ }

end UsageReport
