/-
Secrets and the error log.  What an error shows of its context is redacted, and so are the rows of
errors and of other faults.  There is one way around: a provider fault takes the context's
`user_message` for its own message, and messages are written as they are.  Where the contexts
agree on that, two reports that differ in secrets only cannot be told apart by what they leave.
-/
import UsageReport.Proofs.ErrorLog.Calls
import UsageReport.Proofs.Redaction

namespace UsageReport

theorem ReportError.safeContext_eq {e : ReportError} {context : Value}
    (h : SameButSecrets e.context context) :
    { e with context }.safeContext = e.safeContext := by
  simp only [ReportError.safeContext, h.truth_eq]
  split
  · exact h.redact_eq.symm
  · rfl

theorem ReportError.toValue_eq {e : ReportError} {context : Value}
    (h : SameButSecrets e.context context) : { e with context }.toValue = e.toValue := by
  simp only [ReportError.toValue, ReportError.safeContext_eq h]

namespace ErrorLog

/-- Both came to the same error, up to secrets in its context, or failed alike. -/
inductive TellSame : Outcome Fault → Outcome Fault → Prop
  | failed (f : Fault) : TellSame (.error f) (.error f)
  | known {e : ReportError} {context : Value} (cause : Option Fault)
      (h : SameButSecrets e.context context) :
      TellSame (.ok (.known e cause)) (.ok (.known { e with context } cause))

theorem line_eq (tracebacks : Bool) (time : String) {e : ReportError} {context : Value}
    (h : SameButSecrets e.context context) (trace subsystem : Value)
    {internal internal' : Option Fault}
    (hinternal : internal'.mapM tracebackText = internal.mapM tracebackText) :
    line tracebacks time { e with context } trace subsystem internal' =
      line tracebacks time e trace subsystem internal := by
  simp only [line, row, ReportError.safeContext_eq h, hinternal]

section Reports

variable {log : ErrorLog} {time : String} {trace subsystem : Value} {f f' : Fault}

/-- Calls that tell the same have the same row. -/
theorem Call.entry_eq {way way' : Way}
    (htold : TellSame (Call.told ⟨time, f, trace, subsystem, way⟩)
      (Call.told ⟨time, f', trace, subsystem, way'⟩))
    (hinternal : (Call.internal ⟨time, f', trace, subsystem, way'⟩).mapM tracebackText =
      (Call.internal ⟨time, f, trace, subsystem, way⟩).mapM tracebackText) :
    Call.entry log ⟨time, f', trace, subsystem, way'⟩ =
      Call.entry log ⟨time, f, trace, subsystem, way⟩ := by
  unfold Call.entry
  generalize Call.told ⟨time, f, trace, subsystem, way⟩ = told at htold
  generalize Call.told ⟨time, f', trace, subsystem, way'⟩ = told' at htold
  cases htold with
  | failed mishap => rfl
  | known cause h => simp only [line_eq log.tracebacks time h trace subsystem hinternal]

/-- Reports with the same row leave the same behind, and succeed alike. -/
theorem report_eq_of_entry {context context' : Pairs}
    (h : Call.entry log ⟨time, f', trace, subsystem, .report context'⟩ =
      Call.entry log ⟨time, f, trace, subsystem, .report context⟩) (s : Effects) :
    (log.report time s f' trace subsystem context').1 =
        (log.report time s f trace subsystem context).1 ∧
      (log.report time s f' trace subsystem context').2.isOk =
        (log.report time s f trace subsystem context).2.isOk := by
  have hperform : log.perform s ⟨time, f', trace, subsystem, .report context'⟩ =
      log.perform s ⟨time, f, trace, subsystem, .report context⟩ := by
    rw [perform_eq, perform_eq, h]
  have hisOk (answer : Outcome Fault) : (answer.map fun _ => ()).isOk = answer.isOk := by
    cases answer <;> rfl
  have hleft := congrArg Prod.fst hperform
  have hright := congrArg (fun answer => answer.2.isOk) hperform
  simp only [perform, hisOk] at hleft hright
  exact ⟨hleft, hright⟩

/-- The named arguments clash alike. -/
theorem providerClash_eq {left right : Pairs} (h : PairsSameButSecrets left right) :
    providerClash right = providerClash left := by
  simp only [providerClash, h.any_key (· == .text "error"), h.any_key (· == .text "self"),
    h.any_key (·.points?.isNone)]

theorem get?_putNew {key other : Value} (pairs : Pairs) (value : Value)
    (hkey : (key == other) = false) :
    (pairs.putNew key value).get? other = pairs.get? other := by
  unfold Pairs.putNew
  split
  · rfl
  · simp [Pairs.get?, List.find?_append, hkey]

/-- A fault of others turns into the same error under contexts that differ in secrets only, as
long as they agree on what a provider fault takes for its message. -/
theorem normalize_tellSame (hf : f.isKnown = false) {left right : Pairs}
    (h : PairsSameButSecrets left right)
    (hmessage : (subsystem == .text "provider") = true →
      right.get? (.text "user_message") = left.get? (.text "user_message")) :
    TellSame (normalize f subsystem left) (normalize f subsystem right) := by
  have hfull := h.putNew (.text "exception_type") (.text f.className)
  rw [normalize_of_not_known hf, normalize_of_not_known hf]
  by_cases hprovider : (subsystem == .text "provider") = true
  · simp only [hprovider, if_true, providerClash_eq hfull]
    cases f.message with
    | error failure => exact .failed _
    | ok text =>
        cases providerClash (left.putNew (.text "exception_type") (.text f.className)) with
        | some failure => exact .failed _
        | none =>
            have hother : (Value.text "exception_type" == .text "user_message") = false := by simp
            rw [get?_putNew right _ hother, get?_putNew left _ hother, hmessage hprovider]
            exact .known none (.dict (.shown _ (.refl _)
              (hfull.filter_key fun k => !(k == .text "user_message"))))
  · simp only [hprovider]
    exact .known none (.dict hfull)

end Reports

/-- Values that differ in secrets only are redacted to the same value, which holds nothing but the
fixed text under sensitive keys, at any depth.  So an error shows and logs the same whatever the
secrets in its context are, and logging it succeeds or fails alike, with tracebacks or without.
The same holds of any other fault with two contexts, unless it is a provider fault and the
contexts differ in what it takes for its message. -/
theorem secrets_leave_no_trace (log : ErrorLog) (time : String) (s : Effects)
    (trace subsystem : Value) :
    (∀ v w, SameButSecrets v w → redact v = redact w) ∧
      (∀ v r pairs k x, redact v = .ok r → Within (.dict pairs) r → (k, x) ∈ pairs →
        isSensitive k = .ok true → x = redacted) ∧
      (∀ (e : ReportError) (context : Value) (cause : Option Fault) (given : Pairs),
        SameButSecrets e.context context →
          { e with context }.toValue = e.toValue ∧
          (log.report time s (.known { e with context } cause) trace subsystem given).1 =
            (log.report time s (.known e cause) trace subsystem given).1 ∧
          (log.report time s (.known { e with context } cause) trace subsystem given).2.isOk =
            (log.report time s (.known e cause) trace subsystem given).2.isOk) ∧
      ∀ (f : Fault) (left right : Pairs), f.isKnown = false → PairsSameButSecrets left right →
        ((subsystem == .text "provider") = true →
          right.get? (.text "user_message") = left.get? (.text "user_message")) →
        (log.report time s f trace subsystem right).1 =
            (log.report time s f trace subsystem left).1 ∧
          (log.report time s f trace subsystem right).2.isOk =
            (log.report time s f trace subsystem left).2.isOk := by
  refine ⟨?_, ?_, ?_, ?_⟩
  · intro v w h
    exact h.redact_eq
  · intro v r pairs k x hr h hmem hk
    exact eq_redacted_of_within hr h hmem hk
  · intro e context cause given h
    refine ⟨ReportError.toValue_eq h, ?_⟩
    apply report_eq_of_entry
    apply Call.entry_eq
    · exact TellSame.known cause h
    · rfl
  · intro f left right hf h hmessage
    apply report_eq_of_entry
    apply Call.entry_eq
    · exact normalize_tellSame hf h hmessage
    · rfl

/-- A context with a secret at two depths. -/
def secretContext (secret : Value) : Pairs :=
  [(.text "x", .int 1), (.text "Auth_Key", secret),
    (.text "parts", .list [.dict [(.text "password", secret)]])]

theorem secretContext_same (v w : Value) :
    PairsSameButSecrets (secretContext v) (secretContext w) :=
  .shown _ (.refl _) (.secret v w rfl (.shown _ (.list (.cons (.dict
    (.secret v w rfl .nil)) .nil)) .nil))

theorem secrets_leave_no_trace_sample :
    redact (.dict (secretContext (.text "a"))) = redact (.dict (secretContext (.bytes [1]))) ∧
      (sample.report "10:00" sampleEffects (.raised "KeyError" []) (.text "t") (.text "provider")
          (secretContext (.text "a"))).1 =
        (sample.report "10:00" sampleEffects (.raised "KeyError" []) (.text "t") (.text "provider")
          (secretContext (.bytes [1]))).1 := by
  obtain ⟨hredact, -, -, hreport⟩ :=
    secrets_leave_no_trace sample "10:00" sampleEffects (.text "t") (.text "provider")
  have hsame := secretContext_same (.bytes [1]) (.text "a")
  exact ⟨hredact _ _ (.dict (secretContext_same _ _)),
    (hreport (.raised "KeyError" []) _ _ rfl hsame fun _ => by
      simp [secretContext, Pairs.get?]).1⟩

/-- A context whose message holds a secret. -/
def messageContext (secret : Value) : Pairs :=
  [(.text "user_message", .dict [(.text "password", secret)])]

/-- The report of a provider that raised, with a secret in the message of its context. -/
def messageReport (secret : Value) : Effects × Outcome Fault :=
  sample.report "10:00" sampleEffects (.raised "RuntimeError" [.text "x"]) (.text "t")
    (.text "provider") (messageContext secret)

/-- The row of a provider fault shows the secrets in its message, and whether there is a row at
all depends on them. -/
theorem message_shows_secrets :
    PairsSameButSecrets (messageContext (.text "A")) (messageContext (.text "B")) ∧
      PairsSameButSecrets (messageContext (.text "A")) (messageContext (.bytes [65])) ∧
      (messageReport (.text "A")).1.files ≠ (messageReport (.text "B")).1.files ∧
      (messageReport (.text "A")).2.isOk = true ∧ (messageReport (.bytes [65])).2.isOk = false := by
  have hsame (v w : Value) : PairsSameButSecrets (messageContext v) (messageContext w) :=
    .shown _ (.dict (.secret v w rfl .nil)) .nil
  exact ⟨hsame _ _, hsame _ _, by decide +kernel, by decide +kernel, by decide +kernel⟩

end ErrorLog

end UsageReport
