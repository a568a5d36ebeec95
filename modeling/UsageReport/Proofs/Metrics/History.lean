/-
Metrics as the sum of their history.  What counts of a run is what was done since the last reset,
and of that only what succeeded.  A counter is the sum of what was added under its key, a gauge
holds what was set last, and a histogram is a window of the last samples.  One operation keeps
this relation between a history and the metrics, so any run does.
-/
import Mathlib.Data.List.DropRight
import UsageReport.Proofs.Metrics.Histogram
import UsageReport.Proofs.Metrics.Key

namespace UsageReport

/-! ### Tables under distinct keys -/

namespace Table

variable {α : Type}

/-- The keys of a table, in the order of their first use. -/
def keys (t : Table α) : List SeriesKey := t.map (·.1)

/-- A series that is set keeps its place, or goes last if it is new. -/
theorem keys_put (key : SeriesKey) (content : α) (t : Table α) :
    (t.put key content).keys = if key ∈ t.keys then t.keys else t.keys ++ [key] :=
  keys_put_ite (put key content) rfl (fun _ _ _ => rfl) t

theorem keys_put_nodup {t : Table α} (h : t.keys.Nodup) (key : SeriesKey) (content : α) :
    (t.put key content).keys.Nodup :=
  nodup_keys_put (keys_put key content t) h

/-- Under distinct keys, what a table holds is found under its key. -/
theorem get?_of_mem {t : Table α} (h : t.keys.Nodup) {s : SeriesKey × α} (hs : s ∈ t) :
    t.get? s.1 = some s.2 := by
  induction t with
  | nil => cases hs
  | cons first rest ih =>
      obtain ⟨k, content⟩ := first
      rw [keys, List.map_cons, List.nodup_cons] at h
      rw [get?, lookup_cons_ite]
      rcases List.mem_cons.mp hs with rfl | hrest
      · exact if_pos rfl
      · have hother : s.1 ≠ k := by
          rintro rfl
          exact h.1 (List.mem_map.mpr ⟨s, hrest, rfl⟩)
        rw [if_neg hother]
        exact ih h.2 hrest

end Table

namespace Metrics

/-! ### What a history says about a key -/

namespace Operation

/-- What is added to the counter of a key. -/
def added? (key : SeriesKey) : Operation → Option Int
  | add name amount tags => if .of name tags = key then amount.toInt.toOption else none
  | _ => none

/-- What the gauge of a key is set to. -/
def noted? (key : SeriesKey) : Operation → Option Value
  | setGauge name value tags => if .of name tags = key then some value else none
  | _ => none

/-- The sample that the histogram of a key takes. -/
def sampled? (key : SeriesKey) : Operation → Option Float
  | observe name value tags => if .of name tags = key then value.toFloat.toOption else none
  | _ => none

def isReset : Operation → Bool
  | reset => true
  | _ => false

end Operation

/-- All that was added to the counter of a key. -/
def added (key : SeriesKey) (done : List Operation) : List Int := done.filterMap (·.added? key)

/-- All that the gauge of a key was set to. -/
def noted (key : SeriesKey) (done : List Operation) : List Value := done.filterMap (·.noted? key)

/-- All samples that the histogram of a key took. -/
def sampled (key : SeriesKey) (done : List Operation) : List Float :=
  done.filterMap (·.sampled? key)

section Concat

variable {α : Type} {said : Operation → Option α} {op : Operation}

theorem filterMap_concat_none (done : List Operation) (h : said op = none) :
    (done ++ [op]).filterMap said = done.filterMap said := by
  rw [List.filterMap_append, List.filterMap_cons_none h, List.filterMap_nil, List.append_nil]

theorem filterMap_concat_some (done : List Operation) {x : α} (h : said op = some x) :
    (done ++ [op]).filterMap said = done.filterMap said ++ [x] := by
  rw [List.filterMap_append, List.filterMap_cons_some h, List.filterMap_nil]

end Concat

variable {m : Metrics}

/-- The operations of a run that succeed. -/
def succeeded (m : Metrics) : List Operation → List Operation
  | [] => []
  | op :: rest =>
    match m.perform op with
    | (m, .ok ()) => op :: succeeded m rest
    | (m, .error _) => succeeded m rest

/-- The operations after the last reset. -/
def sinceReset (ops : List Operation) : List Operation := ops.rtakeWhile (!·.isReset)

theorem run_concat (m : Metrics) (ops : List Operation) (op : Operation) :
    m.run (ops ++ [op]) = ((m.run ops).perform op).1 := by
  rw [run, List.foldl_append, List.foldl_cons, List.foldl_nil, ← run]

theorem succeeded_concat (m : Metrics) (ops : List Operation) (op : Operation) :
    m.succeeded (ops ++ [op]) =
      m.succeeded ops ++ if ((m.run ops).perform op).2.isOk then [op] else [] := by
  induction ops generalizing m with
  | nil =>
      have hrun : m.run [] = m := rfl
      simp only [hrun, List.nil_append, succeeded]
      generalize m.perform op = performed
      obtain ⟨m', failure | ⟨⟩⟩ := performed <;> rfl
  | cons first rest ih =>
      have hrun : m.run (first :: rest) = (m.perform first).1.run rest := rfl
      rw [hrun, List.cons_append, succeeded, succeeded]
      generalize m.perform first = performed
      obtain ⟨m', failure | ⟨⟩⟩ := performed
      · exact ih m'
      · exact congrArg (first :: ·) (ih m')

/-- What is left of a history once something more was done. -/
def remaining (kept : List Operation) (op : Operation) (answer : Except Failure Unit) :
    List Operation :=
  if answer.isOk then if op.isReset then [] else kept ++ [op] else kept

theorem sinceReset_succeeded_concat (m : Metrics) (ops : List Operation) (op : Operation) :
    sinceReset (m.succeeded (ops ++ [op])) =
      remaining (sinceReset (m.succeeded ops)) op ((m.run ops).perform op).2 := by
  rw [succeeded_concat, remaining]
  split
  · rw [sinceReset, List.rtakeWhile_concat]
    cases op.isReset <;> rfl
  · rw [List.append_nil]

/-! ### One operation -/

/-- The metrics are what a history since the last reset makes of new ones under a limit. -/
structure Reflects (bound : Nat) (kept : List Operation) (m : Metrics) : Prop where
  limit : m.limit = bound
  counter : ∀ key, m.counter key = (added key kept).sum
  gauge : ∀ key, m.gauges.get? key = (noted key kept).getLast?
  samples : ∀ key, (m.histograms.get? key).getD [] = lastOf bound (sampled key kept)
  counters_nodup : m.counters.keys.Nodup
  gauges_nodup : m.gauges.keys.Nodup
  histograms_nodup : m.histograms.keys.Nodup

theorem reflects_new (bound : Nat) : Reflects bound [] ⟨bound, [], [], []⟩ where
  limit := rfl
  counter _ := rfl
  gauge _ := rfl
  samples _ := List.drop_nil.symm
  counters_nodup := List.nodup_nil
  gauges_nodup := List.nodup_nil
  histograms_nodup := List.nodup_nil

namespace Reflects

variable {bound : Nat} {kept : List Operation} {name value : Value} {tags : Pairs}

theorem add (h : Reflects bound kept m) {n : Int} (hn : value.toInt = .ok n) :
    Reflects bound (kept ++ [.add name value tags]) (m.add (.of name tags) n) where
  limit := h.limit
  counter key := by
    rw [counter_add, h.counter]
    by_cases hkey : key = .of name tags
    · have hadded : Operation.added? key (.add name value tags) = some n := by
        simp [Operation.added?, hkey, hn, Except.toOption]
      rw [if_pos hkey, added, added, filterMap_concat_some kept hadded, List.sum_append,
        List.sum_singleton]
    · have hadded : Operation.added? key (.add name value tags) = none :=
        if_neg (Ne.symm hkey)
      rw [if_neg hkey, added, added, filterMap_concat_none kept hadded, Int.add_zero]
  gauge key := (h.gauge key).trans (congrArg _ (filterMap_concat_none kept rfl).symm)
  samples key := (h.samples key).trans (congrArg _ (filterMap_concat_none kept rfl).symm)
  counters_nodup := Table.keys_put_nodup h.counters_nodup _ _
  gauges_nodup := h.gauges_nodup
  histograms_nodup := h.histograms_nodup

theorem setGauge (h : Reflects bound kept m) :
    Reflects bound (kept ++ [.setGauge name value tags]) (m.setGauge (.of name tags) value) where
  limit := h.limit
  counter key := (h.counter key).trans (congrArg _ (filterMap_concat_none kept rfl).symm)
  gauge key := by
    rw [Metrics.setGauge, Table.get?_put, h.gauge]
    by_cases hkey : key = .of name tags
    · have hnoted : Operation.noted? key (.setGauge name value tags) = some value :=
        if_pos hkey.symm
      rw [if_pos hkey, noted, filterMap_concat_some kept hnoted, List.getLast?_concat]
    · have hnoted : Operation.noted? key (.setGauge name value tags) = none :=
        if_neg (Ne.symm hkey)
      rw [if_neg hkey, noted, noted, filterMap_concat_none kept hnoted]
  samples key := (h.samples key).trans (congrArg _ (filterMap_concat_none kept rfl).symm)
  counters_nodup := h.counters_nodup
  gauges_nodup := Table.keys_put_nodup h.gauges_nodup _ _
  histograms_nodup := h.histograms_nodup

/-- Making an empty histogram is nothing that a history tells. -/
theorem openHistogram (h : Reflects bound kept m) (key : SeriesKey) :
    Reflects bound kept (m.openHistogram key) := by
  obtain ⟨hlimit, hcounters, hgauges⟩ := m.openHistogram_keeps key
  exact {
    limit := hlimit.trans h.limit
    counter := fun k => (congrArg (fun t => (Table.get? k t).getD 0) hcounters).trans (h.counter k)
    gauge := fun k => (congrArg (Table.get? k) hgauges).trans (h.gauge k)
    samples := fun k => (m.openHistogram_samples key k).trans (h.samples k)
    counters_nodup := hcounters ▸ h.counters_nodup
    gauges_nodup := hgauges ▸ h.gauges_nodup
    histograms_nodup := by
      unfold Metrics.openHistogram
      split
      · exact h.histograms_nodup
      · exact Table.keys_put_nodup h.histograms_nodup key [] }

theorem sample (h : Reflects bound kept m) {x : Float} (hx : value.toFloat = .ok x) :
    Reflects bound (kept ++ [.observe name value tags])
      ((m.openHistogram (.of name tags)).sample (.of name tags) x) where
  limit := (h.openHistogram _).limit
  counter key := ((h.openHistogram _).counter key).trans
    (congrArg _ (filterMap_concat_none kept rfl).symm)
  gauge key := ((h.openHistogram _).gauge key).trans
    (congrArg _ (filterMap_concat_none kept rfl).symm)
  samples key := by
    rw [m.sample_openHistogram, h.limit, h.samples, h.samples]
    by_cases hkey : key = .of name tags
    · have hsampled : Operation.sampled? key (.observe name value tags) = some x := by
        simp [Operation.sampled?, hkey, hx, Except.toOption]
      rw [if_pos hkey, ← hkey, lastOf_lastOf_append, sampled, sampled,
        filterMap_concat_some kept hsampled]
    · have hsampled : Operation.sampled? key (.observe name value tags) = none :=
        if_neg (Ne.symm hkey)
      rw [if_neg hkey, sampled, sampled, filterMap_concat_none kept hsampled]
  counters_nodup := (h.openHistogram _).counters_nodup
  gauges_nodup := (h.openHistogram _).gauges_nodup
  histograms_nodup := Table.keys_put_nodup (h.openHistogram _).histograms_nodup _ _

theorem reset (h : Reflects bound kept m) : Reflects bound [] m.reset where
  limit := h.limit
  counter _ := rfl
  gauge _ := rfl
  samples _ := List.drop_nil.symm
  counters_nodup := List.nodup_nil
  gauges_nodup := List.nodup_nil
  histograms_nodup := List.nodup_nil

/-- An operation on a series reflects its history if it does under the key of its tags. -/
theorem withSeries (h : Reflects bound kept m) {op : Operation}
    {act : SeriesKey → Metrics × Except Failure Unit}
    (hact : Reflects bound (remaining kept op (act (.of name tags)).2) (act (.of name tags)).1) :
    Reflects bound (remaining kept op (m.withSeries name tags act).2)
      (m.withSeries name tags act).1 := by
  unfold Metrics.withSeries
  cases hread : SeriesKey.read name tags with
  | error failure => exact h
  | ok key =>
      rw [SeriesKey.eq_of_read hread]
      exact hact

/-- Whatever is done, and whether or not it succeeds, the metrics reflect what remains of the
history. -/
theorem perform (h : Reflects bound kept m) (op : Operation) :
    Reflects bound (remaining kept op (m.perform op).2) (m.perform op).1 := by
  cases op with
  | add name amount tags =>
      apply h.withSeries
      cases hn : amount.toInt with
      | error failure =>
          rw [increment, hn]
          exact h
      | ok n =>
          rw [increment, hn]
          exact h.add hn
  | setGauge name value tags =>
      apply h.withSeries
      exact h.setGauge
  | observe name value tags =>
      apply h.withSeries
      cases hanswer : (m.observe (.of name tags) value).2 with
      | error failure =>
          rcases observe_error hanswer with hsame | hopen
          · rw [hsame]
            exact h
          · rw [hopen]
            exact h.openHistogram _
      | ok _ =>
          obtain ⟨x, hx, hsample⟩ := observe_ok hanswer
          rw [hsample]
          exact h.sample hx
  | reset => exact h.reset

end Reflects

/-! ### Any run -/

theorem reflects_run (limit : Int) (ops : List Operation) :
    Reflects (max leastLimit limit.toNat) (sinceReset ((new limit).succeeded ops))
      ((new limit).run ops) := by
  induction ops using List.reverseRecOn with
  | nil => exact reflects_new _
  | append_singleton before op ih =>
      rw [run_concat, sinceReset_succeeded_concat]
      exact ih.perform op

/-- After any operations, of which some may fail, the metrics are what those make of them that
succeeded since the last reset.  A counter is the sum of what was added under its key, a gauge
holds what was set last under its key, and a histogram the last samples taken under its key, as
many as there are or as the limit allows, in order.  A key is the text of the name and, in
ascending order, the texts of the tags that have a value; so it is the same in whatever order the
tags are given, and without any tags if none of them has a value. -/
theorem metrics_are_their_history (limit : Int) (ops : List Operation) :
    let m := (new limit).run ops
    let kept := sinceReset ((new limit).succeeded ops)
    (∀ name tags, m.count name tags =
      (SeriesKey.read name tags).map fun key => (added key kept).sum) ∧
    (∀ s ∈ m.counters, s.2 = (added s.1 kept).sum) ∧
    (∀ key, m.gauges.get? key = (noted key kept).getLast?) ∧
    (∀ s ∈ m.gauges, (noted s.1 kept).getLast? = some s.2) ∧
    (∀ key, m.histograms.get? key = none → sampled key kept = []) ∧
    (∀ s ∈ m.histograms, s.2 <:+ sampled s.1 kept ∧
      s.2.length = min (sampled s.1 kept).length (max 10 limit.toNat)) ∧
    (∀ name tags key, SeriesKey.read name tags = .ok key →
      key.name = name.plain ∧
      key.tags.Perm ((tags.filter (fun t => match t.2 with
        | .null => false
        | _ => true)).map fun t => (t.1.plain, t.2.plain)) ∧
      key.tags.Pairwise (tagLE · · = true)) ∧
    (∀ name (tags tags' : Pairs), tags.Perm tags' → m.count name tags = m.count name tags') ∧
    ∀ name (tags : Pairs), (∀ t ∈ tags, t.2 = .null) → m.count name tags = m.count name [] := by
  intro m kept
  have hreflects : Reflects (max leastLimit limit.toNat) kept m := reflects_run limit ops
  refine ⟨?count, ?counters, hreflects.gauge, ?gauges, ?unsampled, ?histograms, ?keys, ?order,
    ?absent⟩
  case count =>
    intro name tags
    simp only [count, funext hreflects.counter]
  case counters =>
    intro s hs
    rw [← hreflects.counter, counter, Table.get?_of_mem hreflects.counters_nodup hs,
      Option.getD_some]
  case gauges =>
    intro s hs
    rw [← hreflects.gauge, Table.get?_of_mem hreflects.gauges_nodup hs]
  case unsampled =>
    intro key hnone
    have hempty := congrArg List.length (hreflects.samples key)
    rw [hnone, length_lastOf, Option.getD_none, List.length_nil] at hempty
    simp only [leastLimit] at hempty
    exact List.eq_nil_of_length_eq_zero (by omega)
  case histograms =>
    intro s hs
    have hlast := hreflects.samples s.1
    rw [Table.get?_of_mem hreflects.histograms_nodup hs, Option.getD_some] at hlast
    rw [hlast]
    exact ⟨List.drop_suffix _ _, (length_lastOf _ _).trans (Nat.min_comm _ _)⟩
  case keys =>
    intro name tags key hread
    rw [SeriesKey.eq_of_read hread]
    exact ⟨rfl, SeriesKey.of_tags name tags⟩
  case order =>
    intro name tags tags' hperm
    rw [count, count, SeriesKey.read_perm name hperm]
  case absent =>
    intro name tags hnull
    rw [count, count, SeriesKey.read_of_null name hnull]

/-- A reset, an amount that is no number, and tags in two orders, one of them without a value. -/
example : ((new 0).run [.add (.text "n") (.int 5) [], .reset,
    .add (.text "n") (.int 2) [(.text "b", .int 1), (.text "a", .bool true)],
    .add (.text "n") .null [],
    .add (.text "n") (.int 3) [(.text "a", .bool true), (.text "c", .null),
      (.text "b", .int 1)]]).counters =
    [(⟨Text.points "n", [(Text.points "a", Text.points "True"),
      (Text.points "b", Text.points "1")]⟩, 5)] := by
  cbv

end Metrics

end UsageReport
