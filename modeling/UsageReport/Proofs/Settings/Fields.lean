/-
What validation accepts.  A dictionary makes a record exactly if each field that is given reads
as the record holds it, each field that is not given has its default, and nothing else is given.
-/
import UsageReport.Settings.Basic

namespace UsageReport

namespace Field

variable {α β : Type}

/-- The record holds what was read from the value given under the name, and the default if there
is none. -/
def Carries (given : Pairs) (name : String) (fallback : α) (read : Value → Reading α) (a : α) :
    Prop :=
  match Pairs.get? (.text name) given with
  | none => a = fallback
  | some v => read v = .ok a

theorem optional_eq_ok_iff {given : Pairs} {name : String} {fallback a : α}
    {read : Value → Reading α} :
    optional given name fallback read = .ok a ↔ Carries given name fallback read a := by
  cases hget : Pairs.get? (.text name) given with
  | none => simp only [optional, Carries, hget, Except.ok.injEq, eq_comm]
  | some v =>
      cases hread : read v with
      | ok x => simp only [optional, Carries, hget, hread, Except.ok.injEq]
      | error kind => simp only [optional, Carries, hget, hread, reduceCtorEq]

/-- What holds of the default and of all that is read holds of the field. -/
theorem Carries.holds {given : Pairs} {name : String} {fallback a : α} {read : Value → Reading α}
    (h : Carries given name fallback read a) {P : α → Prop} (hfallback : P fallback)
    (hread : ∀ v, read v = .ok a → P a) : P a := by
  unfold Carries at h
  split at h
  · rw [h]
    exact hfallback
  · next v _ => exact hread v h

/-- A number is read if it is whole and lies between the bounds. -/
theorem Coercions.within_eq_ok_iff {coercions : Coercions} {least n : Int} {most : Option Int}
    {v : Value} : coercions.within least most v = .ok n ↔
      coercions.whole v = .ok n ∧ least ≤ n ∧ ∀ m ∈ most, n ≤ m := by
  unfold within
  cases hwhole : coercions.whole v with
  | error kind => simp [bind, Except.bind]
  | ok k =>
      simp only [bind, Except.bind]
      by_cases hleast : k < least
      · rw [if_pos hleast]
        simp only [reduceCtorEq, Except.ok.injEq, false_iff]
        omega
      rw [if_neg hleast]
      cases most with
      | none =>
          simp only [Except.ok.injEq, Option.not_mem_none, false_implies, implies_true, and_true]
          omega
      | some m =>
          simp only [Option.mem_some_iff, forall_eq']
          split
          · simp only [reduceCtorEq, Except.ok.injEq, false_iff]
            omega
          · simp only [Except.ok.injEq]
            omega

theorem both_eq_ok_iff {first : Validated α} {second : Validated β} {ab : α × β} :
    both first second = .ok ab ↔ first = .ok ab.1 ∧ second = .ok ab.2 := by
  cases first with
  | error problems => simp [both]
  | ok a =>
      cases second with
      | error problems => simp [both]
      | ok b => simp [both, Prod.ext_iff]

theorem map_eq_ok_iff {fields : Validated α} {f : α → β} {b : β} :
    fields.map f = .ok b ↔ ∃ a, fields = .ok a ∧ f a = b := by
  cases fields with
  | error problems => simp [Except.map]
  | ok a => simp [Except.map]

theorem unknownFields_eq_nil_iff {names : List String} {given : Pairs} :
    unknownFields names given = [] ↔ ∀ p ∈ given, ∃ name ∈ names, p.1 = .text name := by
  rw [unknownFields, List.filterMap_eq_nil_iff]
  apply forall₂_congr
  intro p _
  cases p.1 with
  | text s => simp
  | null | bool | int | float | broken | bytes | list | tuple | set | dict => simp

/-- A record is made if its fields can be read and nothing else is given. -/
theorem record_eq_ok_iff {names : List String} {given : Pairs} {fields : Validated α} {a : α} :
    record names given fields = .ok a ↔
      fields = .ok a ∧ ∀ p ∈ given, ∃ name ∈ names, p.1 = .text name := by
  constructor
  · intro h
    unfold record at h
    split at h
    · cases h
    · split at h
      · next hunknown =>
        cases h
        exact ⟨rfl, unknownFields_eq_nil_iff.mp hunknown⟩
      · cases h
  · rintro ⟨rfl, hnames⟩
    have hbroken : given.any isBrokenKey = false := by
      rw [List.any_eq_false]
      intro p hp
      obtain ⟨name, -, hname⟩ := hnames p hp
      simp [isBrokenKey, hname]
    have hunknown := unknownFields_eq_nil_iff.mpr hnames
    simp [record, hbroken, hunknown]

end Field

variable {coercions : Field.Coercions}

/-- What settings hold that are made from a dictionary. -/
structure Settings.Fits (coercions : Field.Coercions) (given : Pairs) (s : Settings) : Prop where
  known : ∀ p ∈ given, ∃ name ∈ Settings.fieldNames, p.1 = .text name
  isolate : Field.Carries given "isolate_provider_faults" true coercions.bool s.isolateFaults
  marker : Field.Carries given "fault_marker_key" usualMarker (Settings.readMarker coercions)
    s.faultMarker
  validate : Field.Carries given "validate_fragments" false coercions.bool s.validateFragments
  record : Field.Carries given "record_metrics" true coercions.bool s.recordMetrics
  limit : Field.Carries given "max_samples_per_histogram" 200 (coercions.within 10 (some 100000))
    s.sampleLimit

theorem Settings.ofPairs_eq_ok_iff {given : Pairs} {s : Settings} :
    Settings.ofPairs coercions given = .ok s ↔ s.Fits coercions given := by
  unfold Settings.ofPairs
  simp only [Field.record_eq_ok_iff, Field.map_eq_ok_iff, Prod.exists, Field.both_eq_ok_iff,
    Field.optional_eq_ok_iff]
  constructor
  · rintro ⟨⟨isolate, marker, validate, record, limit, ⟨hisolate, hmarker, hvalidate, hrecord,
      hlimit⟩, rfl⟩, hknown⟩
    exact ⟨hknown, hisolate, hmarker, hvalidate, hrecord, hlimit⟩
  · rintro ⟨hknown, hisolate, hmarker, hvalidate, hrecord, hlimit⟩
    exact ⟨⟨_, _, _, _, _, ⟨hisolate, hmarker, hvalidate, hrecord, hlimit⟩, rfl⟩, hknown⟩

/-- Settings from a dictionary ask for at least ten samples and at most a hundred thousand. -/
theorem Settings.Fits.sampleLimit_bounds {given : Pairs} {s : Settings}
    (h : s.Fits coercions given) : 10 ≤ s.sampleLimit ∧ s.sampleLimit ≤ 100000 := by
  refine h.limit.holds (P := fun n => 10 ≤ n ∧ n ≤ 100000) ?_ ?_
  · exact (by decide : (10 : Int) ≤ 200 ∧ (200 : Int) ≤ 100000)
  · intro v hv
    obtain ⟨-, hleast, hmost⟩ := Field.Coercions.within_eq_ok_iff.mp hv
    exact ⟨hleast, hmost 100000 rfl⟩

namespace ConfigFile

/-- What a configuration holds that is made from a dictionary. -/
structure Fits (coercions : Field.Coercions) (given : Pairs) (c : ConfigFile) : Prop where
  known : ∀ p ∈ given, ∃ name ∈ fieldNames, p.1 = .text name
  version : Field.Carries given "config_version" 1 (coercions.within 1 none) c.version
  logDirectory : Field.Carries given "log_dir" (.text "logs") coercions.path c.logDirectory
  errorsPath :
    Field.Carries given "errors_path" (.text "logs/errors.jsonl") coercions.path c.errorsPath
  settings : (Pairs.get? (.text "stats") given = none ∧ c.settings = {}) ∨
    ∃ inner, Pairs.get? (.text "stats") given = some (.dict inner) ∧ c.settings.Fits coercions inner

theorem readSettings_eq_ok_iff {given : Pairs} {s : Settings} :
    readSettings coercions given = .ok s ↔ (Pairs.get? (.text "stats") given = none ∧ s = {}) ∨
      ∃ inner, Pairs.get? (.text "stats") given = some (.dict inner) ∧ s.Fits coercions inner := by
  unfold readSettings
  split
  · next hnone => simp [hnone, eq_comm]
  · next inner hinner =>
    simp only [hinner, reduceCtorEq, false_and, false_or, Option.some.injEq, Value.dict.injEq,
      exists_eq_left', ← Settings.ofPairs_eq_ok_iff]
    cases Settings.ofPairs coercions inner with
    | ok s' => rfl
    | error problems => simp
  · next v hother hv =>
    have hno (inner : Pairs) : v ≠ .dict inner := by
      rintro rfl
      exact hother inner rfl
    simp [hv, hno]

theorem ofPairs_eq_ok_iff {given : Pairs} {c : ConfigFile} :
    ofPairs coercions given = .ok c ↔ c.Fits coercions given := by
  unfold ofPairs
  simp only [Field.record_eq_ok_iff, Field.map_eq_ok_iff, Prod.exists, Field.both_eq_ok_iff,
    Field.optional_eq_ok_iff, readSettings_eq_ok_iff]
  constructor
  · rintro ⟨⟨version, logs, errors, settings, ⟨hversion, hlogs, herrors, hsettings⟩, rfl⟩, hknown⟩
    exact ⟨hknown, hversion, hlogs, herrors, hsettings⟩
  · rintro ⟨hknown, hversion, hlogs, herrors, hsettings⟩
    exact ⟨⟨_, _, _, _, ⟨hversion, hlogs, herrors, hsettings⟩, rfl⟩, hknown⟩

end ConfigFile

end UsageReport
