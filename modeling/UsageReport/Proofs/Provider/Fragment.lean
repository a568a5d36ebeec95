/-
Fragments of named counters.  What is written for counters continues an object, passes the check
and comes back as the counters, in order.  Counters that were listed under repeated names count
once each, at the first place and with the last value.
-/
import Mathlib.Data.List.Induction
import Mathlib.Data.List.Nodup
import UsageReport.Proofs.Json.Writable
import UsageReport.Proofs.Lookup
import UsageReport.Provider.Script

namespace UsageReport

open Text (CodePoint)

/-! ### Listed counters as a dictionary -/

/-- The counters that a list of them comes to: each name at its first place, with the value that
it was listed with last. -/
def dictionaryOf (listed : Fields) : Fields :=
  (listed.map (·.1)).eraseDups.map fun name => (name, (listed.reverse.lookup name).getD .null)

/-- Named values as pairs. -/
def asPairs (fields : Fields) : Pairs := fields.map fun p => (.text p.1, p.2)

/-- Named values as named arguments. -/
def asNamed (fields : Fields) : Named := fields.map fun p => (Text.points p.1, p.2)

theorem named?_asPairs (fields : Fields) : named? (asPairs fields) = some (asNamed fields) := by
  induction fields with
  | nil => rfl
  | cons field rest ih =>
      have hrest : named? (rest.map fun p => (.text p.1, p.2)) = some (asNamed rest) := ih
      simp [asPairs, asNamed, named?, Value.points?, hrest]

theorem eraseDups_append_singleton (names : List String) (name : String) :
    (names ++ [name]).eraseDups =
      if name ∈ names then names.eraseDups else names.eraseDups ++ [name] := by
  rw [List.eraseDups_append]
  by_cases hname : name ∈ names
  · simp [List.removeAll, hname]
  · simp [List.removeAll, hname, List.eraseDups_cons]

theorem names_dictionaryOf (listed : Fields) :
    (dictionaryOf listed).map (·.1) = (listed.map (·.1)).eraseDups := by
  simp [dictionaryOf, Function.comp_def]

theorem names_dictionaryOf_nodup (listed : Fields) : ((dictionaryOf listed).map (·.1)).Nodup := by
  rw [names_dictionaryOf]
  induction listed using List.reverseRecOn with
  | nil => simp
  | append_singleton listed field ih =>
      rw [List.map_append, List.map_singleton, eraseDups_append_singleton]
      split
      · exact ih
      · next hnew =>
        rw [List.nodup_append]
        refine ⟨ih, List.nodup_singleton _, fun name hname other hother heq => ?_⟩
        rw [List.mem_singleton.mp hother] at heq
        exact hnew (heq ▸ List.mem_eraseDups.mp hname)

/-- One more counter takes the place of an old one of its name, or goes last. -/
theorem dictionaryOf_append_singleton (listed : Fields) (name : String) (value : Value) :
    dictionaryOf (listed ++ [(name, value)]) =
      if name ∈ (dictionaryOf listed).map (·.1) then
        (dictionaryOf listed).map fun p => (p.1, if p.1 = name then value else p.2)
      else dictionaryOf listed ++ [(name, value)] := by
  have hlookup (other : String) :
      ((listed ++ [(name, value)]).reverse.lookup other).getD .null =
        if other = name then value else (listed.reverse.lookup other).getD .null := by
    rw [List.reverse_append, List.reverse_singleton, List.singleton_append, lookup_cons_ite]
    split <;> rfl
  have hmem : name ∈ (dictionaryOf listed).map (·.1) ↔ name ∈ listed.map (·.1) := by
    rw [names_dictionaryOf, List.mem_eraseDups]
  unfold dictionaryOf at hmem ⊢
  rw [List.map_append, List.map_singleton, eraseDups_append_singleton]
  by_cases hname : name ∈ listed.map (·.1)
  · rw [if_pos hname, if_pos (hmem.mpr hname), List.map_map]
    apply List.map_congr_left
    intro other _
    rw [hlookup]
    rfl
  · rw [if_neg hname, if_neg fun h => hname (hmem.mp h), List.map_append, List.map_singleton,
      hlookup, if_pos rfl]
    congr 1
    apply List.map_congr_left
    intro other hother
    have hne : other ≠ name := by
      rintro rfl
      exact hname (List.mem_eraseDups.mp hother)
    rw [hlookup, if_neg hne]

/-- Setting a named value in a dictionary of named values. -/
theorem put_asPairs {fields : Fields} (hnames : (fields.map (·.1)).Nodup) (name : String)
    (value : Value) :
    (asPairs fields).put (.text name) value =
      asPairs (if name ∈ fields.map (·.1) then
        fields.map fun p => (p.1, if p.1 = name then value else p.2)
      else fields ++ [(name, value)]) := by
  induction fields with
  | nil => rfl
  | cons field rest ih =>
      obtain ⟨other, old⟩ := field
      rw [List.map_cons, List.nodup_cons] at hnames
      have hrest := ih hnames.2
      by_cases hother : other = name
      · subst hother
        have hsame : (rest.map fun p => (p.1, if p.1 = other then value else p.2)) = rest := by
          refine (List.map_congr_left fun p hp => ?_).trans (List.map_id rest)
          have hmem : p.1 ∈ rest.map (·.1) := List.mem_map_of_mem hp
          have hne : p.1 ≠ other := by
            intro heq
            exact hnames.1 (heq ▸ hmem)
          rw [if_neg hne]
          rfl
        simp [asPairs, Pairs.put, hsame]
      · have hput : (asPairs ((other, old) :: rest)).put (.text name) value =
            (.text other, old) :: (asPairs rest).put (.text name) value := by
          simp [asPairs, Pairs.put, hother]
        rw [hput, hrest]
        by_cases hname : name ∈ rest.map (·.1)
        · have hold : name ∈ ((other, old) :: rest).map (·.1) := List.mem_cons_of_mem _ hname
          rw [if_pos hname, if_pos hold]
          simp [asPairs, hother]
        · have hnew : name ∉ ((other, old) :: rest).map (·.1) := by
            rw [List.map_cons, List.mem_cons, not_or]
            exact ⟨Ne.symm hother, hname⟩
          rw [if_neg hname, if_neg hnew]
          rfl

/-- Listed counters make the dictionary that they come to. -/
theorem ofListed_asPairs (listed : Fields) :
    Pairs.ofListed (asPairs listed) = .ok (asPairs (dictionaryOf listed)) := by
  induction listed using List.reverseRecOn with
  | nil => rfl
  | append_singleton listed field ih =>
      obtain ⟨name, value⟩ := field
      have hsplit :
          asPairs (listed ++ [(name, value)]) = asPairs listed ++ [(.text name, value)] := by
        simp [asPairs]
      unfold Pairs.ofListed at ih ⊢
      rw [hsplit, List.foldlM_append, ih, dictionaryOf_append_singleton,
        ← put_asPairs (names_dictionaryOf_nodup listed)]
      rfl

/-! ### Written counters -/

open Json (Style Document Spells SpellsMember FloatSurvives)

/-- A counter is not written exactly if a part of its value is in the way. -/
theorem fragmentMembers_cases (counters : Fields) (hwhole : ∀ p ∈ counters, p.2.isWhole = true) :
    (∃ failure, fragmentMembers (asNamed counters) = .error failure ∧
        ∃ p ∈ counters, p.2.Obstructed failure) ∨
      ∃ parts, fragmentMembers (asNamed counters) = .ok parts ∧
        ∀ p ∈ counters, ∀ failure, ¬p.2.Obstructed failure := by
  induction counters with
  | nil => exact .inr ⟨[], rfl, by simp⟩
  | cons counter rest ih =>
      obtain ⟨name, value⟩ := counter
      rw [List.forall_mem_cons] at hwhole
      cases hvalue : Style.compact.write 0 value with
      | error failure =>
          refine .inl ⟨failure, ?_, (name, value), List.mem_cons_self,
            Json.obstructed_of_write value hwhole.1 hvalue⟩
          simp [asNamed, fragmentMembers, fragmentMember, hvalue, Except.map, bind, Except.bind]
      | ok text =>
          have hsplit :
              asNamed ((name, value) :: rest) = (Text.points name, value) :: asNamed rest := rfl
          rcases ih hwhole.2 with ⟨failure, hrest, p, hp, hobstructed⟩ | ⟨parts, hrest, hfree⟩
          · refine .inl ⟨failure, ?_, p, List.mem_cons_of_mem _ hp, hobstructed⟩
            simp [hsplit, fragmentMembers, fragmentMember, hvalue, hrest, Except.map, bind,
              Except.bind]
          · refine .inr ⟨(Json.writeText true name.toList ++ ':' :: text) :: parts, ?_, ?_⟩
            · simp [hsplit, fragmentMembers, fragmentMember, Json.writeEscaped_points, hvalue,
                hrest, Except.map, bind, Except.bind, pure, Except.pure]
            · refine List.forall_mem_cons.mpr ⟨fun failure => ?_, hfree⟩
              exact Json.not_obstructed_of_write hvalue

/-- Each written counter spells a member of an object, which stands for the counter. -/
theorem exists_spells_fragmentMembers {counters : Fields} {parts : List (List Char)}
    (h : fragmentMembers (asNamed counters) = .ok parts)
    (hfloats : ∀ p ∈ counters, ∀ x ∈ p.2.floats, FloatSurvives x) :
    ∃ members, List.Forall₂ SpellsMember members parts ∧
      members.map (fun m => (m.1, m.2.toValue)) =
        counters.map fun p => (Text.points p.1, p.2.coerced) := by
  induction counters generalizing parts with
  | nil =>
      cases h
      exact ⟨[], .nil, rfl⟩
  | cons counter rest ih =>
      obtain ⟨name, value⟩ := counter
      rw [List.forall_mem_cons] at hfloats
      obtain ⟨part, hpart, h⟩ := exists_of_bind_eq_ok h
      obtain ⟨others, hothers, h⟩ := exists_of_bind_eq_ok h
      cases h
      obtain ⟨text, htext, rfl⟩ := exists_of_map_eq_ok hpart
      obtain ⟨d, hd, hvalue⟩ :=
        Json.exists_spells_write Style.compact_spaced value htext hfloats.1
      obtain ⟨nameText, hnameText, hspells⟩ := Json.writeText_eq true name.toList
      obtain ⟨members, hmembers, hvalues⟩ := ih hothers hfloats.2
      refine ⟨(Text.points name, d) :: members, .cons ?_ hmembers, ?_⟩
      · refine ⟨nameText, [], text.map .char, ?_, hspells, Json.blank_nil, hd⟩
        simp [Json.writeEscaped_points, hnameText]
      · rw [List.map_cons, hvalues, hvalue, List.map_cons]

/-- A written fragment between braces is an object without space in it. -/
theorem inBraces_parts (parts : List (List Char)) :
    inBraces (Text.points (String.ofList ([','].intercalate parts))) =
      (Style.compact.enclose 1 '\x7b' '\x7d' parts).map .char := by
  by_cases hnone : parts = []
  · subst hnone
    rfl
  · have hsome : parts.isEmpty = false := by simpa using hnone
    simp [inBraces, Text.points, Style.enclose, hsome, Style.compact]

/-- A fragment that is written for counters is read, between braces, as these counters. -/
theorem exists_read_fragment {counters : Fields} (hnames : (counters.map (·.1)).Nodup)
    {parts : List (List Char)} (h : fragmentMembers (asNamed counters) = .ok parts)
    (hfloats : ∀ p ∈ counters, ∀ x ∈ p.2.floats, FloatSurvives x) :
    ∃ d, Json.read (inBraces (Text.points (String.ofList ([','].intercalate parts)))) = .ok d ∧
      d.toValue = .ofFields (counters.map fun p => (p.1, p.2.coerced)) := by
  obtain ⟨members, hmembers, hvalues⟩ := exists_spells_fragmentMembers h hfloats
  have hspells := Json.spells_enclose_object Style.compact_spaced 1 hmembers
  refine ⟨.object members, ?_, ?_⟩
  · rw [inBraces_parts]
    exact Json.read_eq_ok_iff.mpr ⟨[], _, [], by simp, Json.blank_nil, Json.blank_nil, hspells⟩
  · have hnodup := hnames.map Text.points_injective
    have hpoints : members.map (·.1) = counters.map fun p => Text.points p.1 := by
      have hfirst := congrArg (List.map Prod.fst) hvalues
      simpa [Function.comp_def] using hfirst
    rw [Json.Document.toValue, Json.toMembers_eq_map, hvalues, Json.lastWins_of_nodup]
    · simp [Value.ofFields, Value.ofPoints_points, Function.comp_def]
    · simpa [Function.comp_def] using hnodup

/-- Only no counters leave nothing between the braces. -/
theorem fragment_eq_empty_iff {counters : Fields} {parts : List (List Char)}
    (h : fragmentMembers (asNamed counters) = .ok parts) :
    String.ofList ([','].intercalate parts) = "" ↔ counters = [] := by
  cases counters with
  | nil =>
      cases h
      exact ⟨fun _ => rfl, fun _ => rfl⟩
  | cons counter rest =>
      obtain ⟨part, hpart, h⟩ := exists_of_bind_eq_ok h
      obtain ⟨others, -, h⟩ := exists_of_bind_eq_ok h
      cases h
      obtain ⟨text, -, rfl⟩ := exists_of_map_eq_ok hpart
      simp only [reduceCtorEq, iff_false]
      intro hempty
      have hnil := congrArg String.toList hempty
      cases others with
      | nil => simp [Json.writeEscaped] at hnil
      | cons other more => simp [Json.writeEscaped, List.intercalate_cons_cons] at hnil

/-- The text passes the check of fragments, and between braces it is read as the counters. -/
def ReadsAs (t : String) (counters : Fields) : Prop :=
  checkFragment [.text t] = .ok () ∧
    ∃ d, Json.read (inBraces (Text.points t)) = .ok d ∧
      d.toValue = .ofFields (counters.map fun p => (p.1, p.2.coerced))

theorem checkFragment_of_read {t : String} {d : Document}
    (h : Json.read (inBraces (Text.points t)) = .ok d) : checkFragment [.text t] = .ok () := by
  have hjoin : joinTexts 0 [.text t] = .ok (Text.points t) := by
    simp [joinTexts, Value.points?, Except.map]
  rw [checkFragment, hjoin]
  simp only [bind, Except.bind, checkFragmentText, h]

/-- Counters are refused, or written as they are read. -/
theorem fragment_cases {counters : Fields} (hnames : (counters.map (·.1)).Nodup)
    (hwhole : ∀ p ∈ counters, p.2.isWhole = true)
    (hfloats : ∀ p ∈ counters, ∀ x ∈ p.2.floats, Decimal.IsFinite x → FloatSurvives x) :
    (∃ failure, fragment counters = .error failure ∧ ∃ p ∈ counters, p.2.Obstructed failure) ∨
      (∀ p ∈ counters, ∀ failure, ¬p.2.Obstructed failure) ∧
        ∃ t, fragment counters = .ok t ∧ (t = "" ↔ counters = []) ∧ ReadsAs t counters := by
  have heq : fragment counters = (fragmentMembers (asNamed counters)).map
      fun parts => String.ofList ([','].intercalate parts) := rfl
  rcases fragmentMembers_cases counters hwhole with
    ⟨failure, hfail, hobstructed⟩ | ⟨parts, hparts, hfree⟩
  · exact .inl ⟨failure, by rw [heq, hfail]; rfl, hobstructed⟩
  · have hsurvive : ∀ p ∈ counters, ∀ x ∈ p.2.floats, FloatSurvives x := by
      intro p hp x hx
      apply hfloats p hp x hx
      by_contra hfinite
      exact hfree p hp _ (Json.obstructed_of_mem_floats p.2 hx hfinite)
    obtain ⟨d, hread, hvalue⟩ := exists_read_fragment hnames hparts hsurvive
    refine .inr ⟨hfree, String.ofList ([','].intercalate parts), by rw [heq, hparts]; rfl,
      fragment_eq_empty_iff hparts, checkFragment_of_read hread, d, hread, hvalue⟩

theorem countersFragment_asPairs (listed : Fields) :
    countersFragment (asPairs listed) = fragment (dictionaryOf listed) := by
  rw [countersFragment, ofListed_asPairs]
  simp only [Except.bind, fragmentOfPairs, named?_asPairs]
  rfl

theorem dictionaryOf_eq_nil_iff {listed : Fields} : dictionaryOf listed = [] ↔ listed = [] := by
  constructor
  · intro h
    apply List.eq_nil_iff_forall_not_mem.mpr
    intro p hp
    have hmem : p.1 ∈ (listed.map (·.1)).eraseDups :=
      List.mem_eraseDups.mpr (List.mem_map_of_mem hp)
    rw [← names_dictionaryOf, h] at hmem
    cases hmem
  · rintro rfl
    rfl

/-- Counters whose texts are whole and whose finite numbers come back from their texts are either
refused because of some part of them, or written as a fragment that passes the check and is read,
between braces, as the counters, in order; only no counters make an empty fragment.  Whoever lists
them, names repeated or not, therefore appends nothing if there are none, and otherwise one piece
that is read as the dictionary that the list comes to. -/
theorem counters_read_back (counters : Fields) (hnames : (counters.map (·.1)).Nodup)
    (hwhole : ∀ p ∈ counters, p.2.isWhole = true)
    (hfloats : ∀ p ∈ counters, ∀ x ∈ p.2.floats, Decimal.IsFinite x → FloatSurvives x) :
    ((∃ failure, fragment counters = .error failure ∧
        ∃ p ∈ counters, p.2.Obstructed failure) ∨
      (∀ p ∈ counters, ∀ failure, ¬p.2.Obstructed failure) ∧
        ∃ t, fragment counters = .ok t ∧ (t = "" ↔ counters = []) ∧ ReadsAs t counters) ∧
    ∀ listed : Fields, dictionaryOf listed = counters →
      (listed = [] → deliverCounters (asPairs listed) = ⟨[], none⟩) ∧
      (listed ≠ [] →
        (∃ failure, deliverCounters (asPairs listed) = ⟨[], some (.failed failure)⟩ ∧
          ∃ p ∈ counters, p.2.Obstructed failure) ∨
        (∀ p ∈ counters, ∀ failure, ¬p.2.Obstructed failure) ∧
          ∃ t, deliverCounters (asPairs listed) = ⟨[.text t], none⟩ ∧ ReadsAs t counters) := by
  have hcases := fragment_cases hnames hwhole hfloats
  refine ⟨hcases, fun listed hlisted => ⟨?_, fun hsome => ?_⟩⟩
  · rintro rfl
    rfl
  · have hcounters : counters ≠ [] := by
      rw [← hlisted]
      exact fun hnone => hsome (dictionaryOf_eq_nil_iff.mp hnone)
    unfold deliverCounters
    rw [countersFragment_asPairs, hlisted]
    rcases hcases with ⟨failure, hfail, hobstructed⟩ | ⟨hfree, t, ht, hempty, hreads⟩
    · exact .inl ⟨failure, by rw [hfail], hobstructed⟩
    · have hnonempty : t ≠ "" := fun h => hcounters (hempty.mp h)
      exact .inr ⟨hfree, t, by simp [ht, hnonempty], hreads⟩

/-- A name listed twice, a tuple, and two keys with one text. -/
def listedSample : Fields :=
  [("open", .int 1), ("known", .dict [(.int 1, .null), (.text "1", .bool false)]),
    ("open", .tuple [.int 2])]

theorem counters_read_back_sample :
    ((dictionaryOf listedSample).map (·.1)).Nodup ∧
      (∀ p ∈ dictionaryOf listedSample, p.2.isWhole = true) ∧
      (∀ p ∈ dictionaryOf listedSample, ∀ x ∈ p.2.floats,
        Decimal.IsFinite x → FloatSurvives x) ∧
      ∃ t, deliverCounters (asPairs listedSample) = ⟨[.text t], none⟩ ∧
        ∃ d, Json.read (inBraces (Text.points t)) = .ok d ∧
          d.toValue = .ofFields [("open", .list [.int 2]),
            ("known", .dict [(.text "1", .bool false)])] := by
  have hlisted : dictionaryOf listedSample = [("open", .tuple [.int 2]),
      ("known", .dict [(.int 1, .null), (.text "1", .bool false)])] := rfl
  have hnames : ((dictionaryOf listedSample).map (·.1)).Nodup := by decide
  have hwhole : ∀ p ∈ dictionaryOf listedSample, p.2.isWhole = true := by
    rw [hlisted]
    simp [Value.isWhole, Value.allWhole, Value.pairsWhole]
  have hfloats : ∀ p ∈ dictionaryOf listedSample, ∀ x ∈ p.2.floats,
      Decimal.IsFinite x → FloatSurvives x := by
    rw [hlisted]
    simp [Value.floats, Value.floatsAll, Value.floatsPairs]
  refine ⟨hnames, hwhole, hfloats, ?_⟩
  obtain ⟨-, hdeliver⟩ := counters_read_back _ hnames hwhole hfloats
  rcases (hdeliver listedSample rfl).2 (by simp [listedSample]) with
    ⟨failure, -, p, hp, hobstructed⟩ | ⟨-, t, ht, -, d, hread, hvalue⟩
  · rw [hlisted, List.mem_cons, List.mem_singleton] at hp
    rcases hp with rfl | rfl
    · have hwritten : Style.compact.write 0 (.tuple [.int 2]) = .ok "[2]".toList := rfl
      exact absurd hobstructed (Json.not_obstructed_of_write hwritten)
    · have hwritten : Style.compact.write 0 (.dict [(.int 1, .null), (.text "1", .bool false)]) =
          .ok "\x7b\"1\":null,\"1\":false\x7d".toList := rfl
      exact absurd hobstructed (Json.not_obstructed_of_write hwritten)
  · exact ⟨t, ht, d, hread, hvalue.trans rfl⟩

end UsageReport
