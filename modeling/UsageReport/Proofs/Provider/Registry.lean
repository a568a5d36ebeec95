/-
Names, and registries of named providers.  A value is accepted as a name exactly if its text can
be one.  Providers under names that all differ are taken in the order given; the first that
cannot be called decides the fault.
-/
import Mathlib.Data.List.Nodup
import UsageReport.Provider.Basic

namespace UsageReport

/-- A value is accepted as the name that its text is. -/
theorem validateName_eq_ok_iff {v : Value} {n : Name} :
    validateName v = .ok n ↔ v.points? = some n.points := by
  unfold validateName
  split
  · next hnone => simp [hnone]
  · next hempty => simp [hempty, n.points_ne_nil.symm]
  · next points _ hpoints =>
    rw [hpoints, Option.some.injEq, ← Name.ofPoints?_eq_some_iff]
    cases Name.ofPoints? points with
    | none => simp
    | some m => simp

/-- What the refusal of a name shows: a text as it is, and what is no text, or an empty one, by its
description. -/
def refusedName (v : Value) : Value :=
  match v.points? with
  | none | some [] => .text v.describe
  | some _ => v

/-- What has a text can be shown in a refusal. -/
theorem noName_of_hasText {v : Value} (h : v.hasText = true) :
    noName v = invalidName (.text v.describe) := by
  rw [noName, Value.shown, if_pos h]

theorem validateName_refused {v : Value} (h : ∀ n : Name, v.points? ≠ some n.points)
    (htext : v.hasText = true) : validateName v = .error (invalidName (refusedName v)) := by
  cases hpoints : v.points? with
  | none => simp only [validateName, refusedName, hpoints, noName_of_hasText htext]
  | some points =>
      cases points with
      | nil => simp only [validateName, refusedName, hpoints, noName_of_hasText htext]
      | cons p rest =>
          have hmade : Name.ofPoints? (p :: rest) = none := by
            rw [Option.eq_none_iff_forall_ne_some]
            intro n hn
            exact h n (hpoints.trans (congrArg some (Name.ofPoints?_eq_some_iff.mp hn)))
          simp only [validateName, refusedName, hpoints, hmade]

/-- What has no text is none itself. -/
theorem points?_of_not_hasText {v : Value} (h : v.hasText = false) : v.points? = none := by
  cases v with
  | text | broken => cases h
  | null | bool | int | float | bytes | list | tuple | set | dict => rfl

/-- A refusal that would have to show what has no text fails itself. -/
theorem validateName_untold {v : Value} (h : v.hasText = false) :
    validateName v = fail .tooLongToWrite := by
  have hlong : ¬v.hasText = true := Bool.eq_false_iff.mp h
  simp only [validateName, points?_of_not_hasText h, noName, Value.shown, if_neg hlong, fail]

/-- A value is refused as a name, with an error of its own if the value has a text, or it is the
text of the name that it is accepted as. -/
theorem validateName_cases (v : Value) :
    ((∀ n : Name, v.points? ≠ some n.points) ∧
        (v.hasText = true ∧ (∃ shown, validateName v = .error (invalidName shown)) ∨
          v.hasText = false ∧ validateName v = fail .tooLongToWrite)) ∨
      ∃ n : Name, v.points? = some n.points ∧ validateName v = .ok n := by
  by_cases hname : ∃ n : Name, v.points? = some n.points
  · obtain ⟨n, hn⟩ := hname
    exact .inr ⟨n, hn, validateName_eq_ok_iff.mpr hn⟩
  · have hnone : ∀ n : Name, v.points? ≠ some n.points := not_exists.mp hname
    refine .inl ⟨hnone, ?_⟩
    cases htext : v.hasText with
    | true => exact .inl ⟨rfl, _, validateName_refused hnone htext⟩
    | false => exact .inr ⟨rfl, validateName_untold htext⟩

/-- Only the text of a name is equal to it. -/
theorem Name.value_beq_iff {n : Name} {v : Value} : (n.value == v) = true ↔ v = n.value := by
  rw [Name.value, Value.ofPoints]
  split
  · cases v <;> simp [BEq.beq, Value.same, Value.sameNumber, eq_comm]
  · cases v with
    | broken other =>
        have hpoints : (n.points == other) = true ↔ other = n.points := by
          rw [beq_iff_eq, eq_comm]
        simpa only [BEq.beq, Value.same, Value.broken.injEq] using hpoints
    | _ => simp [BEq.beq, Value.same, Value.sameNumber]

namespace Registry

/-- Pairs that make a registry: every name is a valid one, no two are the same, and every provider
can be called. -/
structure Valid (pairs : List (Value × Provider)) : Prop where
  named : ∀ p ∈ pairs, ∃ n : Name, p.1.points? = some n.points
  distinct : (pairs.map (·.1.points?)).Nodup
  callable : ∀ p ∈ pairs, p.2.isCallable = true

/-- What is wrong with a pair that comes after others.  The name is looked at first, then whether
it is one of theirs, and then the provider. -/
inductive Offence (before : List (Value × Provider)) : Value × Provider → Fault → Prop
  | name {v : Value} {p : Provider} (h : ∀ n : Name, v.points? ≠ some n.points)
      (htext : v.hasText = true) : Offence before (v, p) (invalidName (refusedName v))
  /-- No name either, and the refusal cannot show it. -/
  | untold {v : Value} {p : Provider} (h : v.hasText = false) :
      Offence before (v, p) (.failed .tooLongToWrite)
  | repeated {v : Value} {p : Provider} {n : Name} (hname : v.points? = some n.points)
      (h : some n.points ∈ before.map (·.1.points?)) : Offence before (v, p) (duplicateName n)
  | provider {v : Value} {p : Provider} {n : Name} (hname : v.points? = some n.points)
      (hnew : some n.points ∉ before.map (·.1.points?)) (h : p.isCallable = false) :
      Offence before (v, p) (.failed (.noStatistics n.value.describe))

/-- The registry holds the pairs, one for one and in their order. -/
def Holds (r : Registry) (pairs : List (Value × Provider)) : Prop :=
  r.entries.map (fun e => (some e.name.points, e.provider)) =
    pairs.map fun p => (p.1.points?, p.2)

variable {r : Registry} {pairs before after : List (Value × Provider)} {p : Value × Provider}
  {f : Fault}

theorem empty_holds : empty.Holds [] := rfl

/-- Pairs with something wrong among them are not valid. -/
theorem Offence.not_valid (h : Offence before p f) : ¬Valid (before ++ p :: after) := by
  intro hvalid
  cases h with
  | name hname =>
      obtain ⟨n, hn⟩ := hvalid.named _ (List.mem_append_right before List.mem_cons_self)
      exact hname n hn
  | untold hlong =>
      obtain ⟨n, hn⟩ := hvalid.named _ (List.mem_append_right before List.mem_cons_self)
      rw [points?_of_not_hasText hlong] at hn
      cases hn
  | repeated hname hmem =>
      have hdistinct := hvalid.distinct
      rw [List.map_append, List.map_cons, hname] at hdistinct
      exact List.disjoint_of_nodup_append hdistinct hmem List.mem_cons_self
  | provider _ _ hcall =>
      have hcan := hvalid.callable _ (List.mem_append_right before List.mem_cons_self)
      rw [hcall] at hcan
      cases hcan

namespace Holds

theorem names_eq (h : r.Holds pairs) :
    r.names.map (fun n => some n.points) = pairs.map (·.1.points?) := by
  have hfirst := congrArg (List.map Prod.fst) h
  simpa [names, Function.comp_def] using hfirst

/-- What a registry holds is valid. -/
theorem valid (h : r.Holds pairs) : Valid pairs where
  named := by
    intro p hp
    have hmem : p.1.points? ∈ r.names.map fun n => some n.points := by
      rw [h.names_eq]
      exact List.mem_map_of_mem hp
    obtain ⟨n, -, hn⟩ := List.mem_map.mp hmem
    exact ⟨n, hn.symm⟩
  distinct := by
    rw [← h.names_eq]
    exact r.names_nodup.map fun _ _ heq => Name.points_injective (Option.some.inj heq)
  callable := by
    intro p hp
    have hmem : (p.1.points?, p.2) ∈ r.entries.map fun e => (some e.name.points, e.provider) := by
      rw [h]
      exact List.mem_map_of_mem hp
    obtain ⟨e, he, heq⟩ := List.mem_map.mp hmem
    have hprovider : e.provider = p.2 := congrArg Prod.snd heq
    rw [← hprovider]
    exact r.callable e he

/-- One more pair is taken and held, or something is wrong with it. -/
theorem add (h : r.Holds before) (p : Value × Provider) :
    (∃ r', r.add p.1 p.2 = .ok r' ∧ r'.Holds (before ++ [p])) ∨
      ∃ f, Offence before p f ∧ r.add p.1 p.2 = .error f := by
  obtain ⟨v, p⟩ := p
  by_cases hnamed : ∃ n : Name, v.points? = some n.points
  · obtain ⟨n, hn⟩ := hnamed
    have hmem : n ∈ r.names ↔ some n.points ∈ before.map (·.1.points?) := by
      rw [← h.names_eq, List.mem_map]
      simp [Name.points_injective.eq_iff]
    simp only [Registry.add, validateName_eq_ok_iff.mpr hn]
    by_cases hname : n ∈ r.names
    · exact .inr ⟨_, .repeated hn (hmem.mp hname), dif_pos hname⟩
    rw [dif_neg hname]
    by_cases hcall : p.isCallable = true
    · rw [dif_pos hcall]
      refine .inl ⟨_, rfl, ?_⟩
      rw [Holds, push, List.map_append, List.map_append, show _ = _ from h]
      simp [hn]
    · have hnot := Bool.eq_false_iff.mpr hcall
      exact .inr ⟨_, .provider hn (mt hmem.mpr hname) hnot, dif_neg hcall⟩
  · have hnone : ∀ n : Name, v.points? ≠ some n.points := not_exists.mp hnamed
    cases htext : v.hasText with
    | true =>
        exact .inr ⟨_, .name hnone htext,
          by simp only [Registry.add, validateName_refused hnone htext]⟩
    | false =>
        exact .inr ⟨_, .untold htext,
          by simp only [Registry.add, validateName_untold htext, fail]⟩

/-- More pairs are taken and held, or something is wrong with one of them while all before it are
valid. -/
theorem addAll (h : r.Holds before) (pairs : List (Value × Provider)) :
    (∃ r', pairs.foldlM (fun r p => r.add p.1 p.2) r = .ok r' ∧ r'.Holds (before ++ pairs)) ∨
      ∃ earlier p later f, pairs = earlier ++ p :: later ∧ Valid (before ++ earlier) ∧
        Offence (before ++ earlier) p f ∧
        pairs.foldlM (fun r p => r.add p.1 p.2) r = .error f := by
  induction pairs generalizing r before with
  | nil => exact .inl ⟨r, rfl, by rwa [List.append_nil]⟩
  | cons p rest ih =>
      rw [List.foldlM_cons]
      rcases h.add p with ⟨r₁, hadd, h₁⟩ | ⟨f, hoffence, hadd⟩
      · rw [hadd]
        rcases ih h₁ with ⟨r', hrest, h'⟩ | ⟨earlier, q, later, f, rfl, hvalid, hoffence, hrest⟩
        · exact .inl ⟨r', hrest, by simpa using h'⟩
        · refine .inr ⟨p :: earlier, q, later, f, rfl, ?_, ?_, hrest⟩
          · simpa using hvalid
          · simpa using hoffence
      · rw [hadd]
        exact .inr ⟨[], p, rest, f, rfl, by simpa using h.valid, by simpa using hoffence, rfl⟩

end Holds

/-- Providers under different names make a registry exactly if all can be called.  Otherwise the
first that cannot be called is named in the fault. -/
theorem ofList_named {subsystems : List (Name × Provider)}
    (hnames : (subsystems.map (·.1)).Nodup) :
    (∃ before s after, subsystems = before ++ s :: after ∧
        (∀ b ∈ before, b.2.isCallable = true) ∧ s.2.isCallable = false ∧
        ofList (subsystems.map fun s => (s.1.value, s.2)) =
          fail (.noStatistics s.1.value.describe)) ∨
      ((∀ s ∈ subsystems, s.2.isCallable = true) ∧ ∃ r,
        ofList (subsystems.map fun s => (s.1.value, s.2)) = .ok r ∧
          r.entries = subsystems.map fun s => ⟨s.1, s.2⟩) := by
  rcases empty_holds.addAll (subsystems.map fun s => (s.1.value, s.2)) with
    ⟨r, hmade, hholds⟩ | ⟨earlier, p, later, f, heq, hvalid, hoffence, hmade⟩
  · refine .inr ⟨List.forall_mem_map.mp hholds.valid.callable, r, hmade, ?_⟩
    have hinjective : Function.Injective fun e : Entry => (some e.name.points, e.provider) := by
      rintro ⟨name, p⟩ ⟨name', p'⟩ heq
      simp only [Prod.mk.injEq, Option.some.injEq] at heq
      obtain ⟨hpoints, rfl⟩ := heq
      rw [Name.points_injective hpoints]
    apply List.map_injective_iff.mpr hinjective
    rw [show _ = _ from hholds]
    simp [Name.value, Function.comp_def]
  · obtain ⟨before, rest, rfl, rfl, hrest⟩ := List.map_eq_append_iff.mp heq
    obtain ⟨s, after, rfl, rfl, rfl⟩ := List.map_eq_cons_iff.mp hrest
    have hs : s.1.value.points? = some s.1.points := Value.points?_ofPoints _
    refine .inl ⟨before, s, after, rfl, List.forall_mem_map.mp hvalid.callable, ?_⟩
    cases hoffence with
    | name hnone => exact absurd hs (hnone s.1)
    | untold hlong =>
        rw [points?_of_not_hasText hlong] at hs
        cases hs
    | repeated hname hmem =>
        obtain rfl := Name.points_injective (Option.some.inj (hs.symm.trans hname))
        have hbefore : s.1 ∈ before.map (·.1) := by
          simpa [Name.value, Name.points_injective.eq_iff] using hmem
        rw [List.map_append, List.map_cons] at hnames
        exact absurd List.mem_cons_self (List.disjoint_of_nodup_append hnames hbefore)
    | provider hname _ hcall =>
        obtain rfl := Name.points_injective (Option.some.inj (hs.symm.trans hname))
        exact ⟨hcall, hmade⟩

/-- The other pairs have other names. -/
theorem Valid.others (h : Valid (before ++ p :: after)) :
    ∀ q ∈ before ++ after, q.1.points? ≠ p.1.points? := by
  have hdistinct := h.distinct
  rw [List.map_append, List.map_cons, List.nodup_middle, ← List.map_append,
    List.nodup_cons] at hdistinct
  intro q hq heq
  exact hdistinct.1 (heq ▸ List.mem_map_of_mem hq)

/-! ### Look-ups -/

theorem contains_iff {x : Value} :
    r.contains x = true ↔ ∃ n ∈ r.names, (n.value == x) = true := by
  simp [contains, names]

theorem get?_eq_some_iff {x : Value} {q : Provider} :
    r.get? x = some q ↔ ∃ e ∈ r.entries, (e.name.value == x) = true ∧ e.provider = q := by
  rw [get?, Option.map_eq_some_iff]
  constructor
  · rintro ⟨e, hfind, hq⟩
    have hx := List.find?_some hfind
    exact ⟨e, List.mem_of_find?_eq_some hfind, hx, hq⟩
  · rintro ⟨e, he, hx, rfl⟩
    cases hfind : r.entries.find? fun e => e.name.value == x with
    | none => exact absurd hx (List.find?_eq_none.mp hfind e he)
    | some found =>
        have hx' := List.find?_some hfind
        have hname : found.name.value = e.name.value :=
          (Name.value_beq_iff.mp hx').symm.trans (Name.value_beq_iff.mp hx)
        have hsame := Name.points_injective (Value.ofPoints_inj.mp hname)
        have hfound := List.mem_of_find?_eq_some hfind
        exact ⟨found, rfl, congrArg Entry.provider
          (List.inj_on_of_nodup_map r.names_nodup hfound he hsame)⟩

theorem contains_iff_get? {x : Value} : r.contains x = true ↔ r.get? x ≠ none := by
  rw [Option.ne_none_iff_exists', contains_iff]
  simp [get?_eq_some_iff, names]

/-- What is found under a value is the provider of the one pair whose name is equal to it. -/
theorem Holds.get?_eq_some_iff (h : r.Holds pairs) {x : Value} {q : Provider} :
    r.get? x = some q ↔ ∃ before v after, ∃ n : Name, pairs = before ++ (v, q) :: after ∧
      v.points? = some n.points ∧ (n.value == x) = true ∧
      ∀ p ∈ before ++ after, p.1.points? ≠ some n.points := by
  rw [Registry.get?_eq_some_iff]
  constructor
  · rintro ⟨e, he, hx, rfl⟩
    have hmem : (some e.name.points, e.provider) ∈ pairs.map fun p => (p.1.points?, p.2) := by
      rw [← show _ = _ from h]
      exact List.mem_map_of_mem he
    obtain ⟨⟨v, q⟩, hp, heq⟩ := List.mem_map.mp hmem
    obtain ⟨hname, rfl⟩ : v.points? = some e.name.points ∧ q = e.provider := Prod.ext_iff.mp heq
    obtain ⟨before, after, rfl⟩ := List.append_of_mem hp
    have hothers := h.valid.others
    rw [hname] at hothers
    exact ⟨before, v, after, e.name, rfl, hname, hx, hothers⟩
  · rintro ⟨before, v, after, n, rfl, hname, hx, -⟩
    have hmem : (some n.points, q) ∈ r.entries.map fun e => (some e.name.points, e.provider) := by
      rw [show _ = _ from h, ← hname]
      exact List.mem_map_of_mem (List.mem_append_right before List.mem_cons_self)
    obtain ⟨e, he, heq⟩ := List.mem_map.mp hmem
    obtain ⟨hpoints, hq⟩ := Prod.ext_iff.mp heq
    have hsame : e.name = n := Name.points_injective (Option.some.inj hpoints)
    exact ⟨e, he, hsame ▸ hx, hq⟩

/-- Pairs make a registry exactly if every name is a valid one, no two names are the same and every
provider can be called.  Otherwise the first pair with something wrong decides the fault: a name
that is none, told of by the failure to show it where it has no text, else one that was there
before, else a provider that cannot be called.  A registry
holds the pairs one for one and in their order.  A value is in it exactly if it is equal to one of
the names, and exactly then something is found under it, namely the provider of the one pair with
that name. -/
theorem pairs_make_a_registry_iff_valid (pairs : List (Value × Provider)) :
    ((∃ r, ofList pairs = .ok r) ↔ Valid pairs) ∧
    (¬Valid pairs → ∃ before p after f, pairs = before ++ p :: after ∧ Valid before ∧
      Offence before p f ∧ ofList pairs = .error f) ∧
    ∀ r, ofList pairs = .ok r →
      r.entries.map (fun e => (some e.name.points, e.provider)) =
        pairs.map (fun p => (p.1.points?, p.2)) ∧
      r.names.map (fun n => some n.points) = pairs.map (·.1.points?) ∧
      r.size = pairs.length ∧
      ∀ x, (r.contains x = true ↔ ∃ n ∈ r.names, (n.value == x) = true) ∧
        (r.contains x = true ↔ r.get? x ≠ none) ∧
        ∀ q, r.get? x = some q ↔ ∃ before v after, ∃ n : Name,
          pairs = before ++ (v, q) :: after ∧ v.points? = some n.points ∧
          (n.value == x) = true ∧ ∀ p ∈ before ++ after, p.1.points? ≠ some n.points := by
  rcases empty_holds.addAll pairs with
    ⟨r, hmade, hholds⟩ | ⟨before, p, after, f, rfl, hvalid, hoffence, hmade⟩
  · rw [List.nil_append] at hholds
    refine ⟨⟨fun _ => hholds.valid, fun _ => ⟨r, hmade⟩⟩, fun hnot => absurd hholds.valid hnot, ?_⟩
    intro r' hmade'
    obtain rfl : r = r' := Except.ok.inj (hmade.symm.trans hmade')
    refine ⟨hholds, hholds.names_eq, ?_, fun x => ⟨contains_iff, contains_iff_get?,
      fun q => hholds.get?_eq_some_iff⟩⟩
    have hlength := congrArg List.length hholds
    simpa [size] using hlength
  · rw [List.nil_append] at hvalid hoffence
    refine ⟨⟨?_, fun h => absurd h hoffence.not_valid⟩, fun _ => ?_, ?_⟩
    · rintro ⟨r, hr⟩
      cases hmade.symm.trans hr
    · exact ⟨before, p, after, f, rfl, hvalid, hoffence, hmade⟩
    · intro r hr
      cases hmade.symm.trans hr

/-- A name that stands twice is told before what is wrong with the provider under it, and before
the name behind it that is no text.  Two sound pairs make a registry, in which the second is
found. -/
theorem pairs_make_a_registry_iff_valid_sample :
    let files : Provider := ⟨0, .plain, fun _ => ⟨[], none⟩⟩
    let rooms : Provider := ⟨1, .takesFull, fun _ => ⟨[], none⟩⟩
    let missing : Provider := ⟨2, .notCallable, fun _ => ⟨[], none⟩⟩
    let name : Name := ⟨Text.points "rooms", by decide, by decide⟩
    let bad := [(.text "rooms", rooms), (.text "rooms", missing), (.int 7, rooms)]
    let good := [(.text "files", files), (.text "rooms", rooms)]
    (¬Valid bad ∧ ∃ before p after, bad = before ++ p :: after ∧ Valid before ∧
      Offence before p (duplicateName name) ∧ ofList bad = .error (duplicateName name)) ∧
    ∃ r, ofList good = .ok r ∧ r.size = 2 ∧ r.get? (.text "rooms") = some rooms ∧
      r.contains (.int 7) = false := by
  intro files rooms missing name bad good
  have hbad : ¬Valid bad := fun h => absurd h.distinct (by decide)
  have hgood : Valid good :=
    { named := by
        intro p hp
        simp only [good, List.mem_cons, List.not_mem_nil, or_false] at hp
        rcases hp with rfl | rfl
        · exact ⟨⟨Text.points "files", by decide, by decide⟩, rfl⟩
        · exact ⟨name, rfl⟩
      distinct := by decide
      callable := by
        intro p hp
        simp only [good, List.mem_cons, List.not_mem_nil, or_false] at hp
        rcases hp with rfl | rfl <;> rfl }
  obtain ⟨-, hrefused, -⟩ := pairs_make_a_registry_iff_valid bad
  obtain ⟨before, p, after, f, hsplit, hvalid, hoffence, hmade⟩ := hrefused hbad
  have hfault : ofList bad = .error (duplicateName name) := rfl
  obtain rfl : f = duplicateName name := Except.error.inj (hmade.symm.trans hfault)
  obtain ⟨hmakes, -, hholds⟩ := pairs_make_a_registry_iff_valid good
  obtain ⟨r, hr⟩ := hmakes.mpr hgood
  obtain ⟨-, -, hsize, hlookup⟩ := hholds r hr
  refine ⟨⟨hbad, before, p, after, hsplit, hvalid, hoffence, hfault⟩, r, hr, hsize, ?_, ?_⟩
  · refine ((hlookup _).2.2 rooms).mpr ⟨[(.text "files", files)], .text "rooms", [], name, rfl, rfl,
      Name.value_beq_iff.mpr rfl, ?_⟩
    intro p hp
    rw [List.append_nil, List.mem_singleton] at hp
    rw [hp]
    decide
  · rw [Bool.eq_false_iff]
    intro hin
    obtain ⟨n, -, hn⟩ := (hlookup _).1.mp hin
    have hpoints := congrArg Value.points? (Name.value_beq_iff.mp hn)
    rw [Name.value, Value.points?_ofPoints] at hpoints
    cases hpoints

end Registry

end UsageReport
