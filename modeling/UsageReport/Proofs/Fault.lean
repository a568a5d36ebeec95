/-
Texts of faults.  A text cannot be made for two reasons only: a value that has none would be part of
it, or a character is looked up before its text begins.  Each step of making a text fails in these
ways or not at all, and so does the whole.
-/
import UsageReport.Proofs.Outcome

namespace UsageReport

open Text (CodePoint)

/-- The failure is one to make the text of a fault. -/
def Failure.IsUntold (failure : Failure) : Prop :=
  failure = .tooLongToWrite ∨ failure = .strayResult

/-- The operation does not fail but for a text that cannot be made. -/
def FailsUntold {α : Type} (x : Except Failure α) : Prop :=
  ∀ failure, x = .error failure → failure.IsUntold

namespace FailsUntold

variable {α β : Type} {x : Except Failure α}

theorem ok (a : α) : FailsUntold (.ok a) := by
  intro failure h
  cases h

theorem map (h : FailsUntold x) (f : α → β) : FailsUntold (x.map f) :=
  fun failure hfail => h failure (eq_error_of_map_eq_error hfail)

theorem bind {f : α → Except Failure β} (h : FailsUntold x) (hf : ∀ a, FailsUntold (f a)) :
    FailsUntold (x >>= f) := by
  intro failure hfail
  rcases exists_of_bind_eq_error hfail with hx | ⟨a, -, ha⟩
  · exact h failure hx
  · exact hf a failure ha

theorem written (v : Value) : FailsUntold v.written :=
  fun _ h => .inl (Value.written_eq_error_iff.mp h).2

theorem shown (v : Value) : FailsUntold v.shown := by
  intro failure h
  unfold Value.shown at h
  split at h
  · cases h
  · exact .inl (Except.error.inj h).symm

end FailsUntold

/-! ### Faults about encodings -/

theorem CodecFault.failsUntold_textStretch (points : List CodePoint) (start stop : Int) :
    FailsUntold (textStretch points start stop) := by
  intro failure h
  unfold textStretch at h
  split at h
  · exact .inr (Except.error.inj h).symm
  · cases h

theorem CodecFault.failsUntold_of_message {args : List Value}
    {made : Except Failure (List CodePoint)} (h : message? args = some made) :
    FailsUntold made := by
  unfold message? at h
  split at h
  · simp only [Option.bind_eq_bind, Option.bind_eq_some_iff, Option.pure_def,
      Option.some.injEq] at h
    obtain ⟨_, -, _, -, _, -, _, -, rfl⟩ := h
    exact .ok _
  · simp only [Option.bind_eq_bind, Option.bind_eq_some_iff, Option.pure_def,
      Option.some.injEq] at h
    obtain ⟨_, -, _, -, _, -, _, -, _, -, rfl⟩ := h
    exact (failsUntold_textStretch _ _ _).map _
  · simp only [Option.bind_eq_bind, Option.bind_eq_some_iff, Option.pure_def,
      Option.some.injEq] at h
    obtain ⟨_, -, _, -, _, -, _, -, rfl⟩ := h
    exact (failsUntold_textStretch _ _ _).map _
  · cases h

/-! ### Any fault -/

namespace Fault

theorem failsUntold_argumentsText (args : List Value) : FailsUntold (argumentsText args) := by
  unfold argumentsText
  split
  · exact .ok _
  · exact .written _
  · exact .written _

theorem failsUntold_systemHead (number wording : Value) :
    FailsUntold (systemHead number wording) := by
  apply FailsUntold.bind (.written number)
  intro _
  apply FailsUntold.bind (.written wording)
  exact fun _ => .ok _

theorem failsUntold_about (number wording file second : Value) :
    FailsUntold (systemText.about number wording file second) := by
  apply FailsUntold.bind (failsUntold_systemHead number wording)
  intro head
  split
  · exact .ok head
  · exact .bind (.shown _) fun _ => .ok _
  · exact .bind (.shown _) fun _ => .bind (.shown _) fun _ => .ok _

theorem failsUntold_systemText (args : List Value) : FailsUntold (systemText args) := by
  unfold systemText
  split
  · apply failsUntold_systemHead
  · apply failsUntold_about
  · apply failsUntold_about
  · apply failsUntold_about
  · apply failsUntold_argumentsText

theorem failsUntold_raisedText (className : String) (args : List Value) :
    FailsUntold (raisedText className args) := by
  unfold raisedText
  split
  · apply failsUntold_systemText
  · split
    · apply failsUntold_systemText
    · split
      · exact .map (.written _) _
      · split
        · cases hmessage : CodecFault.message? args with
          | none => exact failsUntold_argumentsText args
          | some made => exact CodecFault.failsUntold_of_message hmessage
        · split
          · exact .map (.shown _) _
          · apply failsUntold_argumentsText

/-- The text of a fault can be made, or fails for one of two reasons. -/
theorem failsUntold_message (f : Fault) : FailsUntold f.message := by
  cases f with
  | raised name args => exact failsUntold_raisedText name args
  | failed | invalid | notJson => exact .ok _
  | known e cause => exact .bind (.written _) fun _ => .bind (.written _) fun _ => .ok _

end Fault

end UsageReport
