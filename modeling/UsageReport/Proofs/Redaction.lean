/-
Redaction over two runs.  Values that differ only in what stands under sensitive keys, at any
depth, are the same once redacted, whatever kinds of values the secrets are; and what is redacted
holds nothing but the fixed text under such keys.
-/
import UsageReport.Proofs.Outcome
import UsageReport.Redaction

namespace UsageReport

mutual

/-- The values differ at most in what stands under sensitive keys, at any depth. -/
inductive SameButSecrets : Value → Value → Prop
  | refl (v : Value) : SameButSecrets v v
  | list {xs ys : List Value} : AllSameButSecrets xs ys → SameButSecrets (.list xs) (.list ys)
  | tuple {xs ys : List Value} : AllSameButSecrets xs ys → SameButSecrets (.tuple xs) (.tuple ys)
  | dict {ps qs : Pairs} : PairsSameButSecrets ps qs → SameButSecrets (.dict ps) (.dict qs)

inductive AllSameButSecrets : List Value → List Value → Prop
  | nil : AllSameButSecrets [] []
  | cons {x y : Value} {xs ys : List Value} : SameButSecrets x y → AllSameButSecrets xs ys →
      AllSameButSecrets (x :: xs) (y :: ys)

inductive PairsSameButSecrets : Pairs → Pairs → Prop
  | nil : PairsSameButSecrets [] []
  | secret {k : Value} (v w : Value) {ps qs : Pairs} : isSensitive k = .ok true →
      PairsSameButSecrets ps qs → PairsSameButSecrets ((k, v) :: ps) ((k, w) :: qs)
  | shown (k : Value) {v w : Value} {ps qs : Pairs} : SameButSecrets v w →
      PairsSameButSecrets ps qs → PairsSameButSecrets ((k, v) :: ps) ((k, w) :: qs)

end

mutual

theorem SameButSecrets.redact_eq {v w : Value} (h : SameButSecrets v w) :
    redact v = redact w := by
  cases h with
  | refl => rfl
  | list hall => rw [redact, redact, hall.redactAll_eq]
  | tuple hall => rw [redact, redact, hall.redactAll_eq]
  | dict hpairs => rw [redact, redact, hpairs.redactPairs_eq]

theorem AllSameButSecrets.redactAll_eq {xs ys : List Value} (h : AllSameButSecrets xs ys) :
    redactAll xs = redactAll ys := by
  cases h with
  | nil => rfl
  | cons hfirst hrest => rw [redactAll, redactAll, hfirst.redact_eq, hrest.redactAll_eq]

theorem PairsSameButSecrets.redactPairs_eq {ps qs : Pairs} (h : PairsSameButSecrets ps qs) :
    redactPairs ps = redactPairs qs := by
  cases h with
  | nil => rfl
  | secret v w hk hrest => rw [redactPairs, redactPairs, hk, hrest.redactPairs_eq]; rfl
  | shown k hvalue hrest =>
      rw [redactPairs, redactPairs, hvalue.redact_eq, hrest.redactPairs_eq]

end

/-- Secrets do not decide whether a value counts as true. -/
theorem SameButSecrets.truth_eq {v w : Value} (h : SameButSecrets v w) : v.truth = w.truth := by
  cases h with
  | refl => rfl
  | list hall => cases hall <;> rfl
  | tuple hall => cases hall <;> rfl
  | dict hpairs => cases hpairs <;> rfl

namespace PairsSameButSecrets

variable {ps qs : Pairs}

theorem keys_eq (h : PairsSameButSecrets ps qs) : ps.map (·.1) = qs.map (·.1) := by
  induction ps generalizing qs with
  | nil =>
      cases h
      rfl
  | cons p rest ih =>
      cases h with
      | secret v w hk hrest => rw [List.map_cons, List.map_cons, ih hrest]
      | shown k hvalue hrest => rw [List.map_cons, List.map_cons, ih hrest]

/-- What is asked of keys only has the same answer. -/
theorem any_key (h : PairsSameButSecrets ps qs) (test : Value → Bool) :
    ps.any (fun p => test p.1) = qs.any (fun p => test p.1) := by
  have hkeys := congrArg (List.any · test) h.keys_eq
  simpa only [List.any_map, Function.comp_def] using hkeys

theorem filter_key (h : PairsSameButSecrets ps qs) (test : Value → Bool) :
    PairsSameButSecrets (ps.filter fun p => test p.1) (qs.filter fun p => test p.1) := by
  induction ps generalizing qs with
  | nil =>
      cases h
      exact .nil
  | cons p rest ih =>
      cases h with
      | @secret k v w _ _ hk hrest =>
          by_cases htest : test k = true
          · simpa [htest] using PairsSameButSecrets.secret v w hk (ih hrest)
          · simpa [htest] using ih hrest
      | @shown k v w _ _ hvalue hrest =>
          by_cases htest : test k = true
          · simpa [htest] using PairsSameButSecrets.shown k hvalue (ih hrest)
          · simpa [htest] using ih hrest

theorem append (h : PairsSameButSecrets ps qs) (last : Pairs) :
    PairsSameButSecrets (ps ++ last) (qs ++ last) := by
  induction ps generalizing qs with
  | nil =>
      cases h
      induction last with
      | nil => exact .nil
      | cons p rest ih => exact .shown p.1 (.refl p.2) ih
  | cons p rest ih =>
      cases h with
      | secret v w hk hrest => exact .secret v w hk (ih hrest)
      | shown k hvalue hrest => exact .shown k hvalue (ih hrest)

theorem putNew (h : PairsSameButSecrets ps qs) (key value : Value) :
    PairsSameButSecrets (ps.putNew key value) (qs.putNew key value) := by
  unfold Pairs.putNew
  rw [h.any_key (· == key)]
  split
  · exact h
  · exact h.append _

end PairsSameButSecrets

/-! ### What is left under sensitive keys -/

/-- The first value stands in the second at some depth: as it is, in a list or a tuple, or under
a key. -/
inductive Within (x : Value) : Value → Prop
  | here : Within x x
  | list {xs : List Value} {y : Value} : y ∈ xs → Within x y → Within x (.list xs)
  | tuple {xs : List Value} {y : Value} : y ∈ xs → Within x y → Within x (.tuple xs)
  | dict {pairs : Pairs} {k y : Value} : (k, y) ∈ pairs → Within x y → Within x (.dict pairs)

/-- Whether redaction looks into a value.  It does not look into sets. -/
def Value.isNested : Value → Bool
  | .list _ | .tuple _ | .dict _ => true
  | _ => false

theorem redactAll_eq_mapM (xs : List Value) : redactAll xs = xs.mapM redact := by
  induction xs with
  | nil => rfl
  | cons x rest ih => rw [redactAll, ih, List.mapM_cons]

/-- What redaction makes of an entry. -/
def redactEntry (p : Value × Value) : Except Failure (Value × Value) := do
  let shown ← if ← isSensitive p.1 then pure redacted else redact p.2
  return (p.1, shown)

theorem redactPairs_eq_mapM (pairs : List (Value × Value)) :
    redactPairs pairs = pairs.mapM redactEntry := by
  induction pairs with
  | nil => rfl
  | cons p rest ih =>
      rw [redactPairs, ih, List.mapM_cons, redactEntry]
      rcases isSensitive p.1 with failure | sensitive
      · rfl
      · cases sensitive with
        | true => rfl
        | false => cases redact p.2 <;> rfl

theorem redact_list (xs : List Value) : redact (.list xs) = (xs.mapM redact).map .list := by
  rw [redact, redactAll_eq_mapM]
  rfl

theorem redact_tuple (xs : List Value) : redact (.tuple xs) = (xs.mapM redact).map .list := by
  rw [redact, redactAll_eq_mapM]
  rfl

theorem redact_dict (pairs : Pairs) :
    redact (.dict pairs) = (pairs.mapM redactEntry).map .dict := by
  rw [redact, redactPairs_eq_mapM]
  rfl

/-- An entry keeps its key, and holds the fixed text or what was redacted. -/
theorem redactEntry_eq_ok_iff {p q : Value × Value} :
    redactEntry p = .ok q ↔ q.1 = p.1 ∧ (isSensitive p.1 = .ok true ∧ q.2 = redacted ∨
      isSensitive p.1 = .ok false ∧ redact p.2 = .ok q.2) := by
  obtain ⟨k, v⟩ := p
  obtain ⟨j, w⟩ := q
  unfold redactEntry
  rcases isSensitive k with failure | sensitive
  · simp [bind, Except.bind]
  cases sensitive with
  | true => simp [bind, Except.bind, pure, Except.pure, eq_comm]
  | false =>
      cases redact v with
      | error failure => simp [bind, Except.bind]
      | ok shown => simp [bind, Except.bind, pure, Except.pure, eq_comm]

/-- Redaction keeps what it does not look into, goes through the members of lists and tuples, which
become lists, and through the entries of dictionaries. -/
theorem redact_eq_ok_cases {v r : Value} (h : redact v = .ok r) :
    (v.isNested = false ∧ r = v) ∨
      (∃ xs ys, (v = .list xs ∨ v = .tuple xs) ∧ r = .list ys ∧ xs.mapM redact = .ok ys) ∨
      ∃ ps qs, v = .dict ps ∧ r = .dict qs ∧ ps.mapM redactEntry = .ok qs := by
  cases v with
  | list xs =>
      rw [redact_list] at h
      obtain ⟨ys, hys, rfl⟩ := exists_of_map_eq_ok h
      exact .inr (.inl ⟨xs, ys, .inl rfl, rfl, hys⟩)
  | tuple xs =>
      rw [redact_tuple] at h
      obtain ⟨ys, hys, rfl⟩ := exists_of_map_eq_ok h
      exact .inr (.inl ⟨xs, ys, .inr rfl, rfl, hys⟩)
  | dict ps =>
      rw [redact_dict] at h
      obtain ⟨qs, hqs, rfl⟩ := exists_of_map_eq_ok h
      exact .inr (.inr ⟨ps, qs, rfl, rfl, hqs⟩)
  | null | bool | int | float | text | broken | bytes | set =>
      cases h
      exact .inl ⟨rfl, rfl⟩

/-- The members of a redacted list are redacted themselves. -/
theorem exists_redact_of_list {v y : Value} {ys : List Value} (h : redact v = .ok (.list ys))
    (hy : y ∈ ys) : ∃ u, redact u = .ok y := by
  obtain ⟨hplain, rfl⟩ | ⟨xs, _, -, hlist, hxs⟩ | ⟨ps, qs, -, hdict, -⟩ := redact_eq_ok_cases h
  · cases hplain
  · cases hlist
    obtain ⟨u, -, hu⟩ := exists_of_mem_mapM hxs hy
    exact ⟨u, hu⟩
  · cases hdict

theorem redact_ne_tuple (v : Value) (ys : List Value) : redact v ≠ .ok (.tuple ys) := by
  intro h
  obtain ⟨hplain, rfl⟩ | ⟨xs, _, -, hlist, -⟩ | ⟨ps, qs, -, hdict, -⟩ := redact_eq_ok_cases h
  · cases hplain
  · cases hlist
  · cases hdict

/-- What stands in a redacted dictionary is the fixed text under sensitive keys, and redacted
itself under all. -/
theorem of_mem_redact_dict {v k y : Value} {pairs : Pairs} (h : redact v = .ok (.dict pairs))
    (hy : (k, y) ∈ pairs) :
    (isSensitive k = .ok false ∨ isSensitive k = .ok true ∧ y = redacted) ∧
      ∃ u, redact u = .ok y := by
  obtain ⟨hplain, rfl⟩ | ⟨xs, _, -, hlist, -⟩ | ⟨ps, _, -, hdict, hps⟩ := redact_eq_ok_cases h
  · cases hplain
  · cases hlist
  · cases hdict
    obtain ⟨p, -, hp⟩ := exists_of_mem_mapM hps hy
    obtain ⟨rfl, ⟨hsecret, hshown⟩ | ⟨hplain, hshown⟩⟩ := redactEntry_eq_ok_iff.mp hp
    · exact ⟨.inr ⟨hsecret, hshown⟩, redacted, congrArg Except.ok hshown.symm⟩
    · exact ⟨.inl hplain, p.2, hshown⟩

/-- All keys of a redacted value have a text, at any depth, and under the sensitive ones stands the
fixed text. -/
theorem entry_of_within {v r : Value} {pairs : Pairs} {k x : Value} (hr : redact v = .ok r)
    (h : Within (.dict pairs) r) (hmem : (k, x) ∈ pairs) :
    isSensitive k = .ok false ∨ isSensitive k = .ok true ∧ x = redacted := by
  induction h generalizing v with
  | here => exact (of_mem_redact_dict hr hmem).1
  | list hy hin ih =>
      obtain ⟨u, hu⟩ := exists_redact_of_list hr hy
      exact ih hu
  | tuple hy hin ih => exact absurd hr (redact_ne_tuple v _)
  | dict hy hin ih =>
      obtain ⟨-, u, hu⟩ := of_mem_redact_dict hr hy
      exact ih hu

theorem eq_redacted_of_within {v r : Value} {pairs : Pairs} {k x : Value} (hr : redact v = .ok r)
    (h : Within (.dict pairs) r) (hmem : (k, x) ∈ pairs) (hk : isSensitive k = .ok true) :
    x = redacted := by
  rcases entry_of_within hr h hmem with hplain | ⟨-, hx⟩
  · rw [hplain] at hk
    cases hk
  · exact hx

end UsageReport
