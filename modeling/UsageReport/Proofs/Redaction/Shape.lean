/-
The shape of what is redacted.  Redaction is a projection: a second one changes nothing.  It walks
through lists, tuples and dictionaries and keeps their members and keys in place, so all it does
is to put the fixed text under sensitive keys and lists in place of tuples.  It fails only at a key
outside the secrets that has no text.
-/
import Mathlib.Data.List.Forall2
import Mathlib.Data.List.Induction
import UsageReport.Proofs.Redaction

namespace UsageReport

/-- What holds of the values that redaction does not look into, and of each other one if it holds
of all that stands in it, holds of every value. -/
theorem Value.nested_induction {motive : Value → Prop}
    (other : ∀ v : Value, v.isNested = false → motive v)
    (list : ∀ xs : List Value, (∀ x ∈ xs, motive x) → motive (.list xs))
    (tuple : ∀ xs : List Value, (∀ x ∈ xs, motive x) → motive (.tuple xs))
    (dict : ∀ pairs : Pairs, (∀ p ∈ pairs, motive p.2) → motive (.dict pairs)) (v : Value) :
    motive v := by
  refine @Value.rec motive (fun xs => ∀ x ∈ xs, motive x) (fun pairs => ∀ p ∈ pairs, motive p.2)
    (fun p => motive p.2) ?null ?bool ?int ?float ?text ?broken ?bytes list tuple ?set dict
    ?noMembers ?members ?noPairs ?pairs ?pair v
  case null => exact other _ rfl
  case bool | int | float | text | broken | bytes => exact fun _ => other _ rfl
  case set => exact fun _ _ => other _ rfl
  case noMembers | noPairs => simp
  case members | pairs =>
    intro first rest ihfirst ihrest
    exact List.forall_mem_cons.mpr ⟨ihfirst, ihrest⟩
  case pair => exact fun _ _ _ ih => ih

theorem redact_of_not_nested {v : Value} (h : v.isNested = false) : redact v = .ok v := by
  cases v with
  | list | tuple | dict => cases h
  | null | bool | int | float | text | broken | bytes | set => rfl

/-! ### The keys that are looked at -/

/-- Redaction of a value looks at the key: it stands in a dictionary at some depth, outside of what
stands under sensitive keys. -/
inductive Asks (k : Value) : Value → Prop
  | key {pairs : Pairs} {y : Value} : (k, y) ∈ pairs → Asks k (.dict pairs)
  | list {xs : List Value} {y : Value} : y ∈ xs → Asks k y → Asks k (.list xs)
  | tuple {xs : List Value} {y : Value} : y ∈ xs → Asks k y → Asks k (.tuple xs)
  | under {pairs : Pairs} {j y : Value} : (j, y) ∈ pairs → isSensitive j = .ok false →
      Asks k y → Asks k (.dict pairs)

theorem isSensitive_eq_error_iff {k : Value} {failure : Failure} :
    isSensitive k = .error failure ↔ k.hasText = false ∧ failure = .tooLongToWrite := by
  rw [isSensitive, ← Value.written_eq_error_iff]
  cases k.written <;> simp [Except.map]

theorem hasText_of_isSensitive {k : Value} {sensitive : Bool} (h : isSensitive k = .ok sensitive) :
    k.hasText = true := by
  obtain ⟨points, hpoints, -⟩ := exists_of_map_eq_ok h
  exact (Value.written_eq_ok_iff.mp hpoints).1

/-- All keys that a redaction looked at have a text. -/
theorem hasText_of_redact {k v r : Value} (h : redact v = .ok r) (hk : Asks k v) :
    k.hasText = true := by
  induction hk generalizing r with
  | key hmem =>
      obtain ⟨qs, hqs, -⟩ := exists_of_map_eq_ok (redact_dict _ ▸ h)
      obtain ⟨q, hq⟩ := exists_of_mapM_eq_ok hqs hmem
      obtain ⟨-, ⟨hkey, -⟩ | ⟨hkey, -⟩⟩ := redactEntry_eq_ok_iff.mp hq
      · exact hasText_of_isSensitive hkey
      · exact hasText_of_isSensitive hkey
  | list hy _ ih =>
      obtain ⟨ys, hys, -⟩ := exists_of_map_eq_ok (redact_list _ ▸ h)
      obtain ⟨y, hy⟩ := exists_of_mapM_eq_ok hys hy
      exact ih hy
  | tuple hy _ ih =>
      obtain ⟨ys, hys, -⟩ := exists_of_map_eq_ok (redact_tuple _ ▸ h)
      obtain ⟨y, hy⟩ := exists_of_mapM_eq_ok hys hy
      exact ih hy
  | under hmem hplain _ ih =>
      obtain ⟨qs, hqs, -⟩ := exists_of_map_eq_ok (redact_dict _ ▸ h)
      obtain ⟨q, hq⟩ := exists_of_mapM_eq_ok hqs hmem
      obtain ⟨-, ⟨hsecret, -⟩ | ⟨-, hvalue⟩⟩ := redactEntry_eq_ok_iff.mp hq
      · rw [hplain] at hsecret
        cases hsecret
      · exact ih hvalue

theorem redactEntry_eq_error {p : Value × Value} {failure : Failure}
    (h : redactEntry p = .error failure) :
    isSensitive p.1 = .error failure ∨
      isSensitive p.1 = .ok false ∧ redact p.2 = .error failure := by
  unfold redactEntry at h
  rcases exists_of_bind_eq_error h with hkey | ⟨sensitive, hkey, h⟩
  · exact .inl hkey
  · cases sensitive with
    | true => cases h
    | false =>
        rcases exists_of_bind_eq_error h with hvalue | ⟨shown, -, h⟩
        · exact .inr ⟨hkey, hvalue⟩
        · cases h

/-- A redaction fails in one way only, at a key without a text. -/
theorem exists_asks_of_redact {v : Value} {failure : Failure} (h : redact v = .error failure) :
    failure = .tooLongToWrite ∧ ∃ k, Asks k v ∧ k.hasText = false := by
  induction v using Value.nested_induction with
  | other v hv =>
      rw [redact_of_not_nested hv] at h
      cases h
  | list xs ih =>
      have hsteps := eq_error_of_map_eq_error (redact_list xs ▸ h)
      obtain ⟨x, hx, herror⟩ := exists_of_mapM_eq_error hsteps
      obtain ⟨hfailure, k, hk, hlong⟩ := ih x hx herror
      exact ⟨hfailure, k, .list hx hk, hlong⟩
  | tuple xs ih =>
      have hsteps := eq_error_of_map_eq_error (redact_tuple xs ▸ h)
      obtain ⟨x, hx, herror⟩ := exists_of_mapM_eq_error hsteps
      obtain ⟨hfailure, k, hk, hlong⟩ := ih x hx herror
      exact ⟨hfailure, k, .tuple hx hk, hlong⟩
  | dict pairs ih =>
      have hsteps := eq_error_of_map_eq_error (redact_dict pairs ▸ h)
      obtain ⟨p, hp, herror⟩ := exists_of_mapM_eq_error hsteps
      rcases redactEntry_eq_error herror with hkey | ⟨hplain, hvalue⟩
      · obtain ⟨hlong, hfailure⟩ := isSensitive_eq_error_iff.mp hkey
        exact ⟨hfailure, p.1, .key hp, hlong⟩
      · obtain ⟨hfailure, k, hk, hlong⟩ := ih p hp hvalue
        exact ⟨hfailure, k, .under hp hplain hk, hlong⟩

/-- A value can be redacted exactly if all keys that are looked at have a text. -/
theorem exists_redact_iff {v : Value} :
    (∃ r, redact v = .ok r) ↔ ∀ k, Asks k v → k.hasText = true := by
  constructor
  · rintro ⟨r, hr⟩ k hk
    exact hasText_of_redact hr hk
  · intro h
    cases hredact : redact v with
    | ok r => exact ⟨r, rfl⟩
    | error failure =>
        obtain ⟨-, k, hk, hlong⟩ := exists_asks_of_redact hredact
        rw [h k hk] at hlong
        cases hlong

/-! ### Lists in place of tuples -/

mutual

/-- A value with a list in place of every tuple.  Keys and the members of sets stay. -/
def Value.withoutTuples : Value → Value
  | .list xs => .list (withoutTuplesAll xs)
  | .tuple xs => .list (withoutTuplesAll xs)
  | .dict pairs => .dict (withoutTuplesPairs pairs)
  | v => v

def withoutTuplesAll : List Value → List Value
  | [] => []
  | x :: xs => x.withoutTuples :: withoutTuplesAll xs

def withoutTuplesPairs : List (Value × Value) → List (Value × Value)
  | [] => []
  | (k, v) :: rest => (k, v.withoutTuples) :: withoutTuplesPairs rest

end

theorem withoutTuplesAll_eq_map (xs : List Value) :
    withoutTuplesAll xs = xs.map Value.withoutTuples := by
  induction xs with
  | nil => rfl
  | cons x rest ih => rw [withoutTuplesAll, ih, List.map_cons]

theorem withoutTuples_list (xs : List Value) :
    (Value.list xs).withoutTuples = .list (xs.map Value.withoutTuples) := by
  rw [Value.withoutTuples, withoutTuplesAll_eq_map]

theorem withoutTuples_tuple (xs : List Value) :
    (Value.tuple xs).withoutTuples = .list (xs.map Value.withoutTuples) := by
  rw [Value.withoutTuples, withoutTuplesAll_eq_map]

theorem withoutTuples_dict (pairs : Pairs) :
    (Value.dict pairs).withoutTuples = .dict (pairs.map fun p => (p.1, p.2.withoutTuples)) := by
  rw [Value.withoutTuples]
  congr 1
  induction pairs with
  | nil => rfl
  | cons p rest ih => rw [withoutTuplesPairs, ih, List.map_cons]

theorem withoutTuples_of_not_nested {v : Value} (h : v.isNested = false) :
    v.withoutTuples = v := by
  cases v with
  | list | tuple | dict => cases h
  | null | bool | int | float | text | broken | bytes | set => rfl

/-- Only the fixed text itself becomes the fixed text. -/
theorem withoutTuples_eq_redacted_iff {v : Value} : v.withoutTuples = redacted ↔ v = redacted := by
  cases v <;> simp [Value.withoutTuples, redacted]

/-! ### The shape -/

mutual

/-- The second value has the shape of the first outside redacted entries: a list stands for every
list or tuple, member by member, a dictionary for every dictionary, entry by entry, and any other
value for itself. -/
inductive SameShape : Value → Value → Prop
  | other {v : Value} : v.isNested = false → SameShape v v
  | list {xs ys : List Value} : List.Forall₂ SameShape xs ys → SameShape (.list xs) (.list ys)
  | tuple {xs ys : List Value} : List.Forall₂ SameShape xs ys → SameShape (.tuple xs) (.list ys)
  | dict {ps qs : Pairs} : List.Forall₂ SameEntry ps qs → SameShape (.dict ps) (.dict qs)

/-- An entry keeps its key.  Under a sensitive one the fixed text stands for all that stood there,
and under any other a value of the same shape. -/
inductive SameEntry : Value × Value → Value × Value → Prop
  | secret {k : Value} (v : Value) : isSensitive k = .ok true → SameEntry (k, v) (k, redacted)
  | shown {k v w : Value} : isSensitive k = .ok false → SameShape v w → SameEntry (k, v) (k, w)

end

/-- The steps of a walk that succeed keep what each of them keeps. -/
theorem forall₂_of_mapM {α β ε : Type} {f : α → Except ε β} {related : α → β → Prop} {xs : List α}
    {ys : List β} (h : xs.mapM f = .ok ys) (hstep : ∀ x ∈ xs, ∀ y, f x = .ok y → related x y) :
    List.Forall₂ related xs ys := by
  have hsteps := (List.forall₂_and_left _ _).mpr ⟨hstep, mapM_eq_ok_iff.mp h⟩
  exact hsteps.imp fun x y hxy => hxy.1 y hxy.2

theorem sameShape_of_redact {v r : Value} (h : redact v = .ok r) : SameShape v r := by
  induction v using Value.nested_induction generalizing r with
  | other v hv =>
      rw [redact_of_not_nested hv] at h
      cases h
      exact .other hv
  | list xs ih =>
      obtain ⟨ys, hys, rfl⟩ := exists_of_map_eq_ok (redact_list xs ▸ h)
      exact .list (forall₂_of_mapM hys fun x hx y hy => ih x hx hy)
  | tuple xs ih =>
      obtain ⟨ys, hys, rfl⟩ := exists_of_map_eq_ok (redact_tuple xs ▸ h)
      exact .tuple (forall₂_of_mapM hys fun x hx y hy => ih x hx hy)
  | dict pairs ih =>
      obtain ⟨qs, hqs, rfl⟩ := exists_of_map_eq_ok (redact_dict pairs ▸ h)
      refine .dict (forall₂_of_mapM hqs ?_)
      rintro ⟨k, v⟩ hp ⟨j, w⟩ hq
      obtain ⟨hkey, ⟨hsecret, hshown⟩ | ⟨hplain, hshown⟩⟩ := redactEntry_eq_ok_iff.mp hq
      · cases hkey
        cases hshown
        exact .secret v hsecret
      · cases hkey
        exact .shown hplain (ih (k, v) hp hshown)

/-- What is redacted stays as it is when it is redacted again. -/
theorem redact_of_redact {v r : Value} (h : redact v = .ok r) : redact r = .ok r := by
  induction v using Value.nested_induction generalizing r with
  | other v hv =>
      rw [redact_of_not_nested hv] at h
      cases h
      exact redact_of_not_nested hv
  | list xs ih =>
      obtain ⟨ys, hys, rfl⟩ := exists_of_map_eq_ok (redact_list xs ▸ h)
      rw [redact_list, mapM_eq_ok_iff.mpr (List.forall₂_same.mpr fun y hy => ?_)]
      · rfl
      · obtain ⟨x, hx, hxy⟩ := exists_of_mem_mapM hys hy
        exact ih x hx hxy
  | tuple xs ih =>
      obtain ⟨ys, hys, rfl⟩ := exists_of_map_eq_ok (redact_tuple xs ▸ h)
      rw [redact_list, mapM_eq_ok_iff.mpr (List.forall₂_same.mpr fun y hy => ?_)]
      · rfl
      · obtain ⟨x, hx, hxy⟩ := exists_of_mem_mapM hys hy
        exact ih x hx hxy
  | dict pairs ih =>
      obtain ⟨qs, hqs, rfl⟩ := exists_of_map_eq_ok (redact_dict pairs ▸ h)
      rw [redact_dict, mapM_eq_ok_iff.mpr (List.forall₂_same.mpr fun q hq => ?_)]
      · rfl
      · obtain ⟨p, hp, hpq⟩ := exists_of_mem_mapM hqs hq
        obtain ⟨hkey, hvalue⟩ := redactEntry_eq_ok_iff.mp hpq
        refine redactEntry_eq_ok_iff.mpr ⟨rfl, ?_⟩
        rw [hkey]
        exact hvalue.imp_right fun hshown => ⟨hshown.1, ih p hp hshown.2⟩

/-! ### Keys set one after the other -/

theorem Pairs.put_of_new {key : Value} (value : Value) {pairs : Pairs}
    (h : ∀ p ∈ pairs, (p.1 == key) = false) : pairs.put key value = pairs ++ [(key, value)] := by
  induction pairs with
  | nil => rfl
  | cons p rest ih =>
      obtain ⟨hfirst, hrest⟩ := List.forall_mem_cons.mp h
      rw [Pairs.put, hfirst, if_neg Bool.false_ne_true, ih hrest, List.cons_append]

/-- Entries whose keys all differ stay as they are when they are set one after the other. -/
theorem Pairs.ofList_of_distinct {pairs : Pairs}
    (h : pairs.Pairwise fun p q => (p.1 == q.1) = false) : Pairs.ofList pairs = pairs := by
  induction pairs using List.reverseRecOn with
  | nil => rfl
  | append_singleton before p ih =>
      obtain ⟨hbefore, -, hlast⟩ := List.pairwise_append.mp h
      have hnew : ∀ q ∈ before, (q.1 == p.1) = false :=
        fun q hq => hlast q hq p (List.mem_singleton_self p)
      rw [Pairs.ofList, List.foldl_append, ← Pairs.ofList, ih hbefore, List.foldl_cons,
        List.foldl_nil, Pairs.put_of_new p.2 hnew]

theorem keys_of_redactPairs {ps qs : Pairs} (h : redactPairs ps = .ok qs) :
    ps.map (·.1) = qs.map (·.1) := by
  rw [redactPairs_eq_mapM] at h
  have hkeys := forall₂_of_mapM h fun p _ q hq => (redactEntry_eq_ok_iff.mp hq).1.symm
  rw [← List.forall₂_eq_eq_eq, List.forall₂_map_left_iff, List.forall₂_map_right_iff]
  exact hkeys

/-- The entries of a redacted dictionary have the keys of the dictionary, so they can be set one
after the other. -/
theorem ofList_redactPairs {ps qs : Pairs}
    (hdistinct : ps.Pairwise fun p q => (p.1 == q.1) = false) (h : redactPairs ps = .ok qs) :
    Pairs.ofList qs = qs := by
  apply Pairs.ofList_of_distinct
  have hkeys : (ps.map (·.1)).Pairwise fun j k => (j == k) = false :=
    List.pairwise_map.mpr hdistinct
  rw [keys_of_redactPairs h] at hkeys
  exact List.pairwise_map.mp hkeys

/-! ### What redaction leaves as it is -/

/-- All entries of all dictionaries in a value, at any depth, pass a test. -/
def Value.EveryEntry (test : Value → Value → Prop) (v : Value) : Prop :=
  ∀ pairs k x, Within (.dict pairs) v → (k, x) ∈ pairs → test k x

section EveryEntry

variable {test : Value → Value → Prop}

theorem everyEntry_of_not_nested {v : Value} (h : v.isNested = false) : v.EveryEntry test := by
  intro pairs k x hin hmem
  cases hin with
  | here | list | tuple | dict => cases h

@[simp] theorem everyEntry_list {xs : List Value} :
    (Value.list xs).EveryEntry test ↔ ∀ x ∈ xs, x.EveryEntry test := by
  constructor
  · intro h x hx pairs k y hin hmem
    exact h pairs k y (.list hx hin) hmem
  · intro h pairs k y hin hmem
    cases hin with
    | list hx hin => exact h _ hx pairs k y hin hmem

@[simp] theorem everyEntry_tuple {xs : List Value} :
    (Value.tuple xs).EveryEntry test ↔ ∀ x ∈ xs, x.EveryEntry test := by
  constructor
  · intro h x hx pairs k y hin hmem
    exact h pairs k y (.tuple hx hin) hmem
  · intro h pairs k y hin hmem
    cases hin with
    | tuple hx hin => exact h _ hx pairs k y hin hmem

@[simp] theorem everyEntry_dict {pairs : Pairs} :
    (Value.dict pairs).EveryEntry test ↔ ∀ p ∈ pairs, test p.1 p.2 ∧ p.2.EveryEntry test := by
  constructor
  · intro h p hp
    exact ⟨h pairs p.1 p.2 .here hp, fun inner k y hin hmem => h inner k y (.dict hp hin) hmem⟩
  · intro h inner k y hin hmem
    cases hin with
    | here => exact (h (k, y) hmem).1
    | dict hp hin => exact (h _ hp).2 inner k y hin hmem

end EveryEntry

/-- Redaction leaves a value as it is, up to tuples, exactly if all its keys have a text and the
fixed text stands under the sensitive ones already. -/
theorem redact_eq_withoutTuples_iff (v : Value) :
    redact v = .ok v.withoutTuples ↔ v.EveryEntry fun k x =>
      isSensitive k = .ok false ∨ isSensitive k = .ok true ∧ x = redacted := by
  induction v using Value.nested_induction with
  | other v hv =>
      rw [redact_of_not_nested hv, withoutTuples_of_not_nested hv]
      exact iff_of_true rfl (everyEntry_of_not_nested hv)
  | list xs ih =>
      rw [redact_list, withoutTuples_list, map_eq_ok_iff fun _ _ => Value.list.inj,
        mapM_eq_ok_map_iff, everyEntry_list]
      exact forall₂_congr ih
  | tuple xs ih =>
      rw [redact_tuple, withoutTuples_tuple, map_eq_ok_iff fun _ _ => Value.list.inj,
        mapM_eq_ok_map_iff, everyEntry_tuple]
      exact forall₂_congr ih
  | dict pairs ih =>
      rw [redact_dict, withoutTuples_dict, map_eq_ok_iff fun _ _ => Value.dict.inj,
        mapM_eq_ok_map_iff, everyEntry_dict]
      refine forall₂_congr fun p hp => ?_
      rw [redactEntry_eq_ok_iff, ← ih p hp]
      constructor
      · rintro ⟨-, ⟨hsecret, hshown⟩ | ⟨hplain, hshown⟩⟩
        · -- the fixed text that stands there already holds nothing to redact
          have htext : p.2 = redacted := withoutTuples_eq_redacted_iff.mp hshown
          refine ⟨.inr ⟨hsecret, htext⟩, ?_⟩
          rw [htext]
          rfl
        · exact ⟨.inl hplain, hshown⟩
      · rintro ⟨hplain | ⟨hsecret, htext⟩, hshown⟩
        · exact ⟨rfl, .inr ⟨hplain, hshown⟩⟩
        · exact ⟨rfl, .inl ⟨hsecret, withoutTuples_eq_redacted_iff.mpr htext⟩⟩

/-- Redaction is a projection that touches nothing but secrets.  It comes to a value exactly if
every key that it looks at, which are all but those in secrets, has a text, and fails otherwise.  A
second redaction changes nothing; what is redacted has the shape of what it was, with keys and
members in place, also when the entries of a dictionary, whose keys all differ, are set one after
the other; and a value without sensitive keys at any depth comes back with lists in place of
tuples.  Up to tuples, a value comes back exactly if it is redacted already. -/
theorem redact_projects :
    (∀ v, (∃ r, redact v = .ok r) ↔ ∀ k, Asks k v → k.hasText = true) ∧
      (∀ v failure, redact v = .error failure → failure = .tooLongToWrite) ∧
      (∀ v r, redact v = .ok r → redact r = .ok r ∧ SameShape v r) ∧
      (∀ pairs : Pairs, pairs.Pairwise (fun p q => (p.1 == q.1) = false) →
        redact (.dict pairs) = (redactPairs pairs).map fun qs => .dict (Pairs.ofList qs)) ∧
      (∀ v : Value, v.EveryEntry (fun k _ => isSensitive k = .ok false) →
        redact v = .ok v.withoutTuples) ∧
      ∀ v, redact v = .ok v.withoutTuples ↔ v.EveryEntry fun k x =>
        isSensitive k = .ok false ∨ isSensitive k = .ok true ∧ x = redacted := by
  refine ⟨fun v => exists_redact_iff, fun v failure h => (exists_asks_of_redact h).1,
    fun v r h => ⟨redact_of_redact h, sameShape_of_redact h⟩, ?loop, ?plain,
    redact_eq_withoutTuples_iff⟩
  case loop =>
    intro pairs hdistinct
    rw [redact]
    cases hqs : redactPairs pairs with
    | error failure => rfl
    | ok qs =>
        have hkept := ofList_redactPairs hdistinct hqs
        simp only [Except.map, hkept]
        rfl
  case plain =>
    intro v hnone
    exact (redact_eq_withoutTuples_iff v).mpr fun pairs k x hin hmem =>
      .inl (hnone pairs k x hin hmem)

/-- A number with too many digits has no text, and a dictionary with it as a key is not redacted:
nothing comes back that could be redacted again. -/
theorem untold_key_is_not_redacted :
    let v : Value := .dict [(.tooLong, .int 1)]
    redact v = .error .tooLongToWrite ∧ ∀ r, redact v ≠ .ok r := by
  intro v
  have hnone : ∀ r, redact v ≠ .ok r := by
    intro r h
    have htext := hasText_of_redact h (.key (List.mem_singleton.mpr rfl))
    rw [Value.hasText_tooLong] at htext
    cases htext
  refine ⟨?_, hnone⟩
  cases hredact : redact v with
  | ok r => exact absurd hredact (hnone r)
  | error failure => rw [(exists_asks_of_redact hredact).1]

/-- A dictionary with a sensitive key, and a tuple that holds none. -/
theorem redact_projects_sample :
    redact (.dict [(.text "Key", .list [.int 1]), (.text "n", .int 2)]) =
        .ok (.dict (Pairs.ofList [(.text "Key", redacted), (.text "n", .int 2)])) ∧
      redact (.tuple [.int 1, .dict [(.text "keys", .tuple [.null])]]) =
        .ok (.list [.int 1, .dict [(.text "keys", .list [.null])]]) := by
  obtain ⟨-, -, -, hloop, hplain, -⟩ := redact_projects
  constructor
  · exact hloop [(.text "Key", .list [.int 1]), (.text "n", .int 2)] (by simp)
  · have hkeys : isSensitive (.text "keys") = .ok false := rfl
    refine hplain _ ?_
    simp only [everyEntry_tuple, everyEntry_dict, List.forall_mem_cons]
    exact ⟨everyEntry_of_not_nested rfl, ⟨⟨hkeys, everyEntry_of_not_nested rfl, by simp⟩, by simp⟩,
      by simp⟩

end UsageReport
