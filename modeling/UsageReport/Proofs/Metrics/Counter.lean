/-
Counters as sums.  Adding to one series changes no other, so a counter holds what was added under
its own key, and the counters of one name hold together what was added under any key of that name.
-/
import Mathlib.Algebra.Ring.Int.Defs
import UsageReport.Metrics.Basic
import UsageReport.Proofs.Lookup

namespace UsageReport

theorem Table.get?_put {α : Type} (key k : SeriesKey) (content : α) (t : Table α) :
    (t.put key content).get? k = if k = key then some content else t.get? k :=
  lookup_put_ite (Table.put key content) rfl (fun _ _ _ => rfl) t k

/-- Adding to a series counts for that series only. -/
theorem Metrics.counter_add (m : Metrics) (key k : SeriesKey) (n : Int) :
    (m.add key n).counter k = m.counter k + if k = key then n else 0 := by
  simp only [Metrics.counter, Metrics.add, Table.get?_put]
  by_cases hk : k = key
  · simp [hk]
  · simp [hk]

/-- What the series of a name hold together. -/
def Table.total (name : List Text.CodePoint) (t : Table Int) : Int :=
  ((t.filter fun s => s.1.name = name).map (·.2)).sum

/-- What the counters of a name hold together, whatever their tags. -/
def Metrics.total (m : Metrics) (name : List Text.CodePoint) : Int := m.counters.total name

theorem Table.total_cons (name : List Text.CodePoint) (s : SeriesKey × Int) (rest : Table Int) :
    Table.total name (s :: rest) =
      (if s.1.name = name then s.2 else 0) + Table.total name rest := by
  by_cases hname : s.1.name = name
  · simp [Table.total, hname]
  · simp [Table.total, hname]

/-- A series that is set counts with its new content instead of the old one. -/
theorem Table.total_put (name : List Text.CodePoint) (key : SeriesKey) (content : Int)
    (t : Table Int) :
    Table.total name (t.put key content) = Table.total name t +
      if key.name = name then content - (t.get? key).getD 0 else 0 := by
  induction t with
  | nil =>
      rw [Table.put, Table.total_cons]
      simp [Table.get?, Table.total]
  | cons s rest ih =>
      obtain ⟨k, old⟩ := s
      rw [Table.put, Table.get?, lookup_cons_ite]
      by_cases hk : k = key
      · subst hk
        rw [if_pos rfl, if_pos rfl, Table.total_cons, Table.total_cons, Option.getD_some]
        split
        · omega
        · omega
      · rw [if_neg hk, if_neg (Ne.symm hk), Table.total_cons, Table.total_cons, ih, Table.get?,
          Int.add_assoc]

/-- Adding to a series adds to what the counters of its name hold together. -/
theorem Metrics.total_add (m : Metrics) (key : SeriesKey) (n : Int)
    (name : List Text.CodePoint) :
    (m.add key n).total name = m.total name + if key.name = name then n else 0 := by
  simp only [Metrics.total, Metrics.add, Table.total_put, Metrics.counter]
  split
  · omega
  · rfl

end UsageReport
