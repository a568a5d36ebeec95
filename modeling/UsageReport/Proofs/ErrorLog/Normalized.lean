/-
What an error keeps of a fault and of the context that it is reported with.  Under most names a
context is kept whole, and what is known of the fault is added.  A provider fault, though, takes
its context as named arguments, beside names of its own: a context that uses one of these is
refused, or loses what it gives there to the message.  It needs the text of the fault, too, which
some faults do not have.
-/
import UsageReport.Proofs.ErrorLog.Secrets

namespace UsageReport

/-! ### Looking up names -/

/-- Whether all keys of a dictionary are texts, with or without lone halves. -/
def Pairs.Named (pairs : Pairs) : Prop := ∀ p ∈ pairs, p.1.points?.isNone = false

theorem Pairs.any_eq_isSome_get? (pairs : Pairs) (key : Value) :
    pairs.any (fun p => p.1 == key) = (pairs.get? key).isSome := by
  rw [Pairs.get?, Option.isSome_map, List.isSome_find?]

theorem Pairs.Named.putNew {pairs : Pairs} (h : pairs.Named) (name : String) (value : Value) :
    (pairs.putNew (.text name) value).Named := by
  unfold Pairs.putNew
  split
  · exact h
  · intro p hp
    rcases List.mem_append.mp hp with hold | hnew
    · exact h p hold
    · rw [List.mem_singleton.mp hnew]
      rfl

/-- What is found under a name stands in the dictionary under it. -/
theorem Pairs.mem_of_get? {pairs : Pairs} {name : String} {value : Value}
    (h : pairs.get? (.text name) = some value) : (.text name, value) ∈ pairs := by
  obtain ⟨p, hfind, rfl⟩ := Option.map_eq_some_iff.mp h
  have hkey : p.1 = .text name := by
    have hfound := List.find?_some hfind
    rw [← Value.ofPoints_points name] at hfound ⊢
    exact Value.beq_ofPoints_iff.mp hfound
  rw [← hkey]
  exact List.mem_of_find?_eq_some hfind

namespace ErrorLog

variable {f : Fault} {subsystem : Value} {context : Pairs} {text : List Text.CodePoint}

/-! ### What should be kept -/

/-- The names that a provider fault has arguments of its own for. -/
def ownNames : List String := ["error", "user_message", "self"]

/-- The context that keeps everything: all that was given, the class of the fault, and its text
if a provider raised it; what was given under these names goes first.  There is none if the text
cannot be made. -/
def keptContext (f : Fault) (provider : Bool) (context : Pairs) : Except Failure Pairs :=
  let full := context.putNew (.text "exception_type") (.text f.className)
  if provider then f.message.map fun text => full.putNew (.text "error") (.ofPoints text)
  else .ok full

/-- An error that keeps all of a fault and of a context under its own code and message. -/
structure KeepsAll (f : Fault) (provider : Bool) (context : Pairs) (e : ReportError) : Prop where
  kind : e.kind = if provider then .providerFault else .general
  code : e.code = .text (if provider then "provider_fault" else "unknown_error")
  message : e.userMessage = .text (if provider then "A statistics provider failed to report."
    else "Something went wrong.")
  context : ∃ pairs kept, e.context = .dict pairs ∧ keptContext f provider context = .ok kept ∧
    pairs.Perm kept

/-! ### Provider faults -/

/-- The class of a fault is added under a name of its own. -/
theorem get?_full (f : Fault) (context : Pairs) (name : String) (hname : name ≠ "exception_type") :
    (context.putNew (.text "exception_type") (.text f.className)).get? (.text name) =
      context.get? (.text name) := by
  apply get?_putNew
  rw [Value.text_beq_text, beq_eq_false_iff_ne]
  exact Ne.symm hname

/-- Named arguments clash over the text of the fault first, and then over the fault itself. -/
theorem providerClash_full (hnamed : context.Named) :
    providerClash (context.putNew (.text "exception_type") (.text f.className)) =
      if (context.get? (.text "error")).isSome then
        some (.repeatedName "memstats.core.errors.ProviderFaultError()" "error")
      else if (context.get? (.text "self")).isSome then
        some (.repeatedArgument "ProviderFaultError.__init__()" "self")
      else none := by
  have hkeys : (context.putNew (.text "exception_type") (.text f.className)).any
      (fun p => p.1.points?.isNone) = false := by
    rw [List.any_eq_false]
    intro p hp
    rw [hnamed.putNew _ _ p hp]
    exact Bool.false_ne_true
  have herror := get?_full f context "error" (by decide)
  have hself := get?_full f context "self" (by decide)
  simp only [providerClash, Pairs.any_eq_isSome_get?, herror, hself, hkeys, Bool.false_eq_true,
    if_false]
  rfl

/-- The text of a provider's fault is made before anything else. -/
theorem normalize_provider_of_no_message (hf : f.isKnown = false)
    (hprovider : (subsystem == .text "provider") = true) {failure : Failure}
    (hmessage : f.message = .error failure) : normalize f subsystem context = fail failure := by
  rw [normalize_of_not_known hf]
  simp only [hprovider, if_true, hmessage]

theorem normalize_provider_of_error (hf : f.isKnown = false)
    (hprovider : (subsystem == .text "provider") = true) (hnamed : context.Named)
    (htext : f.message = .ok text) (herror : (context.get? (.text "error")).isSome = true) :
    normalize f subsystem context =
      fail (.repeatedName "memstats.core.errors.ProviderFaultError()" "error") := by
  rw [normalize_of_not_known hf]
  simp only [hprovider, if_true, htext, providerClash_full hnamed, herror]

theorem normalize_provider_of_self (hf : f.isKnown = false)
    (hprovider : (subsystem == .text "provider") = true) (hnamed : context.Named)
    (htext : f.message = .ok text) (herror : context.get? (.text "error") = none)
    (hself : (context.get? (.text "self")).isSome = true) :
    normalize f subsystem context =
      fail (.repeatedArgument "ProviderFaultError.__init__()" "self") := by
  rw [normalize_of_not_known hf]
  simp only [hprovider, if_true, htext, providerClash_full hnamed, herror, hself,
    Option.isSome_none, Bool.false_eq_true, if_false]

/-- The error of a provider's fault of a text, where no names clash: what the context gives for the
message is taken for it. -/
def providerError (f : Fault) (text : List Text.CodePoint) (context : Pairs) : ReportError :=
  .of .providerFault
    ((context.get? (.text "user_message")).getD (.text ErrorKind.providerFault.userMessage))
    ((.text "error", .ofPoints text) ::
      (context.putNew (.text "exception_type") (.text f.className)).filter
        fun p => !(p.1 == .text "user_message"))

theorem normalize_provider (hf : f.isKnown = false)
    (hprovider : (subsystem == .text "provider") = true) (hnamed : context.Named)
    (htext : f.message = .ok text) (herror : context.get? (.text "error") = none)
    (hself : context.get? (.text "self") = none) :
    normalize f subsystem context = .ok (.known (providerError f text context) none) := by
  have hmessage := get?_full f context "user_message" (by decide)
  rw [normalize_of_not_known hf]
  simp only [hprovider, if_true, htext, providerClash_full hnamed, herror, hself,
    Option.isSome_none, Bool.false_eq_true, if_false, hmessage, providerError]

/-- The message of a provider's fault is kept out of its context. -/
theorem not_mem_providerError {pairs : Pairs}
    (h : (providerError f text context).context = .dict pairs) (value : Value) :
    (.text "user_message", value) ∉ pairs := by
  cases h
  simp

/-- Without a message of its own, the error of a provider's fault keeps the whole context. -/
theorem providerError_keepsAll (htext : f.message = .ok text)
    (herror : context.get? (.text "error") = none)
    (hmessage : context.get? (.text "user_message") = none) :
    KeepsAll f true context (providerError f text context) where
  kind := rfl
  code := rfl
  message := by
    rw [providerError, hmessage]
    rfl
  context := by
    have hfull := get?_full f context "user_message" (by decide)
    have hwhole : (context.putNew (.text "exception_type") (.text f.className)).filter
        (fun p => !(p.1 == .text "user_message")) =
          context.putNew (.text "exception_type") (.text f.className) := by
      rw [List.filter_eq_self]
      intro p hp
      have hany := Pairs.any_eq_isSome_get?
        (context.putNew (.text "exception_type") (.text f.className)) (.text "user_message")
      rw [hfull, hmessage, Option.isSome_none, List.any_eq_false] at hany
      rw [Bool.not_eq_true', Bool.eq_false_iff]
      exact hany p hp
    refine ⟨_, (context.putNew (.text "exception_type") (.text f.className)).putNew
      (.text "error") (.ofPoints text), rfl, ?_, ?_⟩
    · rw [keptContext, htext]
      rfl
    have hnew : (context.putNew (.text "exception_type") (.text f.className)).any
        (fun p => p.1 == .text "error") = false := by
      rw [Pairs.any_eq_isSome_get?, get?_full f context "error" (by decide), herror]
      rfl
    rw [hwhole, Pairs.putNew.eq_def (.text "error"), hnew]
    exact (List.perm_append_singleton _ _).symm

/-! ### Other subsystems -/

/-- The error of a fault that no provider raised. -/
def otherError (f : Fault) (context : Pairs) : ReportError where
  kind := .general
  code := .text "unknown_error"
  userMessage := .text "Something went wrong."
  severity := .severity .error
  recoverable := .bool true
  context := .dict (context.putNew (.text "exception_type") (.text f.className))

theorem normalize_other (hf : f.isKnown = false)
    (hother : (subsystem == .text "provider") = false) :
    normalize f subsystem context = .ok (.known (otherError f context) none) := by
  rw [normalize_of_not_known hf]
  simp only [hother, Bool.false_eq_true, if_false, otherError]

theorem otherError_keepsAll (f : Fault) (context : Pairs) :
    KeepsAll f false context (otherError f context) :=
  ⟨rfl, rfl, rfl, _, _, rfl, rfl, .refl _⟩

/-! ### What is kept -/

/-- Under a name of its own, a provider fault does not keep what the context gives. -/
theorem not_keepsAll (hf : f.isKnown = false)
    (hprovider : (subsystem == .text "provider") = true) (hnamed : context.Named)
    (htext : f.message = .ok text) {name : String}
    (hown : name ∈ ownNames) (hgiven : context.get? (.text name) ≠ none) :
    ¬∃ e, normalize f subsystem context = .ok (.known e none) ∧ KeepsAll f true context e := by
  rintro ⟨e, hnormal, hkeeps⟩
  cases herror : context.get? (.text "error") with
  | some value =>
      rw [normalize_provider_of_error hf hprovider hnamed htext (by rw [herror]; rfl)]
        at hnormal
      cases hnormal
  | none =>
      cases hself : context.get? (.text "self") with
      | some value =>
          rw [normalize_provider_of_self hf hprovider hnamed htext herror (by rw [hself]; rfl)]
            at hnormal
          cases hnormal
      | none =>
          -- Only the message is left, which the context of the error lacks.
          have hname : name = "user_message" := by
            simp only [ownNames, List.mem_cons, List.not_mem_nil, or_false] at hown
            rcases hown with rfl | rfl | rfl
            · exact absurd herror hgiven
            · rfl
            · exact absurd hself hgiven
          subst hname
          rw [normalize_provider hf hprovider hnamed htext herror hself] at hnormal
          cases hnormal
          obtain ⟨value, hvalue⟩ := Option.ne_none_iff_exists'.mp hgiven
          obtain ⟨pairs, kept, hpairs, hkept, hperm⟩ := hkeeps.context
          rw [keptContext, if_pos rfl, htext] at hkept
          cases hkept
          apply not_mem_providerError hpairs value
          have hfull := get?_full f context "user_message" (by decide)
          apply hperm.mem_iff.mpr
          apply Pairs.mem_of_get?
          rw [get?_putNew _ _ (by simp), hfull, hvalue]

/-- The library's own errors pass as they are.  Of any other fault the error keeps everything,
the context, the class and, for a provider, the text, exactly if no provider raised it, or its text
can be made and the context uses none of the names that a provider fault has for itself.  Otherwise
the text cannot be made, which is raised about, or the text or the fault itself is given twice,
which is refused, or the context's message replaces the standard one and is missing from the context
of the error. -/
theorem normalize_keeps_all_iff (f : Fault) (subsystem : Value) {context : Pairs}
    (hnamed : context.Named) :
    (f.isKnown = true → normalize f subsystem context = .ok f) ∧
    (f.isKnown = false →
      ((∃ e, normalize f subsystem context = .ok (.known e none) ∧
          KeepsAll f (subsystem == .text "provider") context e) ↔
        ((subsystem == .text "provider") = true →
          (∃ text, f.message = .ok text) ∧
            ∀ name ∈ ownNames, context.get? (.text name) = none)) ∧
      ((subsystem == .text "provider") = true →
        (∀ failure, f.message = .error failure →
          normalize f subsystem context = fail failure) ∧
        ∀ text, f.message = .ok text →
          ((context.get? (.text "error")).isSome = true → normalize f subsystem context =
            fail (.repeatedName "memstats.core.errors.ProviderFaultError()" "error")) ∧
          (context.get? (.text "error") = none → (context.get? (.text "self")).isSome = true →
            normalize f subsystem context =
              fail (.repeatedArgument "ProviderFaultError.__init__()" "self")) ∧
          (context.get? (.text "error") = none → context.get? (.text "self") = none →
            ∀ message, context.get? (.text "user_message") = some message →
              ∃ e pairs, normalize f subsystem context = .ok (.known e none) ∧
                e.userMessage = message ∧ e.context = .dict pairs ∧
                ∀ value, (.text "user_message", value) ∉ pairs))) := by
  refine ⟨?known, fun hf => ⟨⟨?used, ?free⟩, fun hprovider => ⟨fun failure =>
    normalize_provider_of_no_message hf hprovider, fun text htext => ⟨?error, ?self, ?message⟩⟩⟩⟩
  case known =>
    intro hf
    cases f with
    | known e cause => rfl
    | raised | failed | invalid | notJson => cases hf
  case used =>
    intro hkept hprovider
    rw [hprovider] at hkept
    cases hmessage : f.message with
    | error failure =>
        obtain ⟨e, hnormal, -⟩ := hkept
        rw [normalize_provider_of_no_message hf hprovider hmessage] at hnormal
        cases hnormal
    | ok text =>
        refine ⟨⟨text, rfl⟩, fun name hown => ?_⟩
        by_contra hgiven
        exact not_keepsAll hf hprovider hnamed hmessage hown hgiven hkept
  case free =>
    intro hfree
    cases hprovider : subsystem == .text "provider" with
    | false => exact ⟨_, normalize_other hf hprovider, otherError_keepsAll f context⟩
    | true =>
        obtain ⟨⟨text, htext⟩, hunused⟩ := hfree hprovider
        have herror := hunused "error" (by decide)
        have hmessage := hunused "user_message" (by decide)
        have hself := hunused "self" (by decide)
        exact ⟨_, normalize_provider hf hprovider hnamed htext herror hself,
          providerError_keepsAll htext herror hmessage⟩
  case error =>
    intro herror
    exact normalize_provider_of_error hf hprovider hnamed htext herror
  case self =>
    intro herror hself
    exact normalize_provider_of_self hf hprovider hnamed htext herror hself
  case message =>
    intro herror hself message hmessage
    refine ⟨_, _, normalize_provider hf hprovider hnamed htext herror hself, ?_, rfl, ?_⟩
    · simp only [providerError, hmessage]
      rfl
    · exact not_mem_providerError rfl

/-- A context that names the provider, and a class of its own choice. -/
def namingContext : Pairs :=
  [(.text "provider", .text "rooms"), (.text "exception_type", .text "Timeout")]

theorem normalize_keeps_all_iff_sample :
    namingContext.Named ∧
      ∃ e, normalize (.raised "KeyError" [.text "k"]) (.text "provider") namingContext =
          .ok (.known e none) ∧
        KeepsAll (.raised "KeyError" [.text "k"]) true namingContext e := by
  have hnamed : namingContext.Named := by simp [Pairs.Named, namingContext, Value.points?]
  obtain ⟨-, hother⟩ := normalize_keeps_all_iff (.raised "KeyError" [.text "k"]) (.text "provider")
    hnamed
  obtain ⟨hkept, -⟩ := hother rfl
  have hprovider : (Value.text "provider" == .text "provider") = true := by simp
  rw [hprovider] at hkept
  refine ⟨hnamed, hkept.mpr fun _ => ⟨⟨_, rfl⟩, fun name hown => ?_⟩⟩
  simp only [ownNames, List.mem_cons, List.not_mem_nil, or_false] at hown
  rcases hown with rfl | rfl | rfl <;> simp [namingContext, Pairs.get?]

/-- A provider's fault, reported with a text or with a message of the caller's, is not kept whole:
the one context is refused, and the other takes the place of the standard message. -/
theorem own_names_are_not_kept :
    normalize (.raised "RuntimeError" [.text "boom"]) (.text "provider")
        [(.text "error", .text "mine")] =
      fail (.repeatedName "memstats.core.errors.ProviderFaultError()" "error") ∧
    (∀ name ∈ ["error", "user_message"],
      ¬∃ e, normalize (.raised "RuntimeError" [.text "boom"]) (.text "provider")
          [(.text name, .text "mine")] = .ok (.known e none) ∧
        KeepsAll (.raised "RuntimeError" [.text "boom"]) true [(.text name, .text "mine")] e) := by
  have hnamed (name : String) : Pairs.Named [(.text name, .text "mine")] := by
    simp [Pairs.Named, Value.points?]
  have hprovider : (Value.text "provider" == .text "provider") = true := by simp
  refine ⟨normalize_provider_of_error rfl hprovider (hnamed "error") rfl (by simp [Pairs.get?]),
    ?_⟩
  intro name hname
  have hown : name ∈ ownNames := by
    simp only [List.mem_cons, List.not_mem_nil, or_false] at hname
    rcases hname with rfl | rfl <;> decide
  exact not_keepsAll rfl hprovider (hnamed name) rfl hown (by simp [Pairs.get?])

end ErrorLog

end UsageReport
