/-
Histograms as windows.  Making a histogram adds nothing to it, and a sample goes last; so the
window of the last samples moves on by one, as if it were cut from all samples each time.
-/
import Mathlib.Data.List.Induction
import UsageReport.Proofs.Metrics.Counter

namespace UsageReport.Metrics

section LastOf

variable {α : Type}

theorem length_lastOf (limit : Nat) (xs : List α) :
    (lastOf limit xs).length = min limit xs.length := by
  rw [lastOf, List.length_drop]
  omega

/-- The last members of a list and one more are the last members of the longer list. -/
theorem lastOf_lastOf_append (limit : Nat) (xs : List α) (x : α) :
    lastOf limit (lastOf limit xs ++ [x]) = lastOf limit (xs ++ [x]) := by
  have hlength := length_lastOf limit xs
  have hcut : lastOf limit xs ++ [x] = (xs ++ [x]).drop (xs.length - limit) := by
    rw [lastOf, List.drop_append_of_le_length (Nat.sub_le _ _)]
  rw [lastOf, List.length_append, hlength, hcut, List.drop_drop, lastOf, List.length_append,
    List.length_singleton]
  congr 1
  omega

/-- A window that moves on with every sample holds the last ones. -/
theorem foldl_lastOf (limit : Nat) (samples : List α) :
    samples.foldl (fun kept x => lastOf limit (kept ++ [x])) [] = lastOf limit samples := by
  induction samples using List.reverseRecOn with
  | nil => simp [lastOf]
  | append_singleton before x ih =>
      rw [List.foldl_append, ih, List.foldl_cons, List.foldl_nil, lastOf_lastOf_append]

end LastOf

variable (m : Metrics) (key : SeriesKey)

/-- A histogram that is made holds nothing; one that is there keeps its samples, and so do all
others. -/
theorem openHistogram_samples (k : SeriesKey) :
    ((m.openHistogram key).histograms.get? k).getD [] = (m.histograms.get? k).getD [] := by
  unfold openHistogram
  cases hold : m.histograms.get? key with
  | none =>
      rw [Table.get?_put]
      split
      · next hk => rw [hk, hold, Option.getD_some, Option.getD_none]
      · rfl
  | some old => rfl

/-- Making a histogram changes nothing else. -/
theorem openHistogram_keeps :
    (m.openHistogram key).limit = m.limit ∧ (m.openHistogram key).counters = m.counters ∧
      (m.openHistogram key).gauges = m.gauges := by
  unfold openHistogram
  split <;> exact ⟨rfl, rfl, rfl⟩

/-- Taking a sample changes no limit, counts nothing and sets nothing. -/
theorem observe_keeps (v : Value) :
    (m.observe key v).1.limit = m.limit ∧ (m.observe key v).1.counters = m.counters ∧
      (m.observe key v).1.gauges = m.gauges := by
  unfold observe
  split
  · exact ⟨rfl, rfl, rfl⟩
  · split <;> exact m.openHistogram_keeps key

/-- A sample goes last, and the histogram keeps as many as the limit allows; no other histogram
takes it. -/
theorem sample_openHistogram (x : Float) (k : SeriesKey) :
    (((m.openHistogram key).sample key x).histograms.get? k).getD [] =
      if k = key then lastOf m.limit ((m.histograms.get? key).getD [] ++ [x])
      else (m.histograms.get? k).getD [] := by
  simp only [sample, Table.get?_put]
  split
  · rw [Option.getD_some, m.openHistogram_samples, (m.openHistogram_keeps key).1]
  · exact m.openHistogram_samples key k

variable {m key} {v : Value}

/-- An observation that succeeds takes its sample. -/
theorem observe_ok (h : (m.observe key v).2 = .ok ()) :
    ∃ x, v.toFloat = .ok x ∧ (m.observe key v).1 = (m.openHistogram key).sample key x := by
  unfold observe at h ⊢
  split at h
  · cases h
  · next hroom =>
    rw [if_neg hroom]
    split at h
    · cases h
    · next x hx => exact ⟨x, hx, rfl⟩

/-- An observation that fails at most makes an empty histogram. -/
theorem observe_error {failure : Failure} (h : (m.observe key v).2 = .error failure) :
    (m.observe key v).1 = m ∨ (m.observe key v).1 = m.openHistogram key := by
  unfold observe at h ⊢
  split at h
  · next hfull =>
    left
    rw [if_pos hfull]
  · next hroom =>
    right
    rw [if_neg hroom]
    split at h
    · rfl
    · cases h

end UsageReport.Metrics
