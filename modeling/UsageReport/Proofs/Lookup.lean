/-
Look-ups after a change.  Where the first pair of a key is replaced, or one is added at the end
if there is none, a look-up finds the new value under that key and what it found before under any
other, and all keys keep their places.
-/
namespace UsageReport

variable {α β : Type} [BEq α] [LawfulBEq α] [DecidableEq α]

theorem lookup_cons_ite (q key : α) (b : β) (rest : List (α × β)) :
    ((key, b) :: rest).lookup q = if q = key then some b else rest.lookup q := by
  rw [List.lookup_cons]
  by_cases hq : q = key
  · simp [hq]
  · have hkey : (q == key) = false := beq_false_of_ne hq
    simp [hq, hkey]

/-- What is looked up once a change put a value under a key. -/
theorem lookup_put_ite (put : List (α × β) → List (α × β)) {key : α} {b : β}
    (hnil : put [] = [(key, b)])
    (hcons : ∀ p old rest,
      put ((p, old) :: rest) = if p = key then (p, b) :: rest else (p, old) :: put rest)
    (pairs : List (α × β)) (q : α) :
    (put pairs).lookup q = if q = key then some b else pairs.lookup q := by
  induction pairs with
  | nil => rw [hnil, lookup_cons_ite]
  | cons first rest ih =>
      obtain ⟨p, old⟩ := first
      rw [hcons]
      by_cases hp : p = key
      · rw [if_pos hp, lookup_cons_ite, lookup_cons_ite, hp]
        split <;> rfl
      · rw [if_neg hp, lookup_cons_ite, lookup_cons_ite, ih]
        by_cases hq : q = p
        · have hother : q ≠ key := by
            rw [hq]
            exact hp
          rw [if_pos hq, if_pos hq, if_neg hother]
        · rw [if_neg hq, if_neg hq]

omit [BEq α] [LawfulBEq α] in
/-- What is put under a new key goes last. -/
theorem put_ite_of_not_mem (put : List (α × β) → List (α × β)) {key : α} {b : β}
    (hnil : put [] = [(key, b)])
    (hcons : ∀ p old rest,
      put ((p, old) :: rest) = if p = key then (p, b) :: rest else (p, old) :: put rest)
    {pairs : List (α × β)} (h : key ∉ pairs.map (·.1)) : put pairs = pairs ++ [(key, b)] := by
  induction pairs with
  | nil => exact hnil
  | cons first rest ih =>
      obtain ⟨p, old⟩ := first
      rw [List.map_cons, List.mem_cons, not_or] at h
      rw [hcons, if_neg (Ne.symm h.1), ih h.2]
      rfl

/-- A key that is put keeps its place, or goes last if it is new. -/
theorem keys_put_ite (put : List (α × β) → List (α × β)) {key : α} {b : β}
    (hnil : put [] = [(key, b)])
    (hcons : ∀ p old rest,
      put ((p, old) :: rest) = if p = key then (p, b) :: rest else (p, old) :: put rest)
    (pairs : List (α × β)) :
    (put pairs).map (·.1) =
      if key ∈ pairs.map (·.1) then pairs.map (·.1) else pairs.map (·.1) ++ [key] := by
  induction pairs with
  | nil =>
      rw [hnil]
      rfl
  | cons first rest ih =>
      obtain ⟨p, old⟩ := first
      rw [hcons]
      by_cases hp : p = key
      · simp [hp]
      · have hmem : key ∈ ((p, old) :: rest).map (·.1) ↔ key ∈ rest.map (·.1) := by
          simp [Ne.symm hp]
        rw [if_neg hp, List.map_cons, ih]
        by_cases hrest : key ∈ rest.map (·.1)
        · rw [if_pos hrest, if_pos (hmem.mpr hrest)]
          rfl
        · rw [if_neg hrest, if_neg fun h => hrest (hmem.mp h)]
          rfl

omit [DecidableEq α] in
/-- Putting a key leaves none twice. -/
theorem nodup_keys_put {put : List (α × β) → List (α × β)} {key : α} {pairs : List (α × β)}
    (hkeys : (put pairs).map (·.1) =
      if key ∈ pairs.map (·.1) then pairs.map (·.1) else pairs.map (·.1) ++ [key])
    (h : (pairs.map (·.1)).Nodup) : ((put pairs).map (·.1)).Nodup := by
  rw [hkeys]
  split
  · exact h
  · next hnew =>
    refine List.nodup_append.mpr ⟨h, by simp, fun old hold k hk heq => ?_⟩
    rw [List.mem_singleton.mp hk] at heq
    exact hnew (heq ▸ hold)

end UsageReport
