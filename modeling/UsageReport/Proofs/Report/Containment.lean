/-
Containment of faults.  Deliveries that both cost their entry leave the same marker, so a report
tells nothing about a fault but that there was one.  What stands before and after an entry
depends on the other entries only: whatever one provider delivers, the rest of the report is the
same, character by character.
-/
import Mathlib.Data.List.Forall2
import UsageReport.Proofs.Report.Isolation

namespace UsageReport

open Text (CodePoint)

/-- The opening of a report, and the entries given with a comma behind each. -/
def reportBefore (entries : List (Name × List CodePoint)) : List CodePoint :=
  Text.points "\x7b\"memory_stats\":\x7b" ++
    entries.flatMap fun entry => entryText entry ++ [.char ',']

/-- The entries given with a comma before each, and the end of a report. -/
def reportAfter (entries : List (Name × List CodePoint)) : List CodePoint :=
  (entries.flatMap fun entry => .char ',' :: entryText entry) ++ Text.points "\x7d\x7d"

theorem intercalate_cons {α : Type} (c : α) (part : List α) (after : List (List α)) :
    [c].intercalate (part :: after) = part ++ after.flatMap (c :: ·) := by
  induction after generalizing part with
  | nil => simp
  | cons next rest ih =>
      rw [List.intercalate_cons_cons, ih]
      simp

theorem intercalate_append_cons {α : Type} (c : α) (before after : List (List α))
    (part : List α) :
    [c].intercalate (before ++ part :: after) =
      before.flatMap (· ++ [c]) ++ part ++ after.flatMap (c :: ·) := by
  induction before with
  | nil => exact intercalate_cons c part after
  | cons first rest ih =>
      have hne : rest ++ part :: after ≠ [] := by simp
      obtain ⟨next, more, hmore⟩ := List.exists_cons_of_ne_nil hne
      rw [List.cons_append, hmore, List.intercalate_cons_cons, ← hmore, ih]
      simp

/-- A report falls into what stands before an entry, the entry, and what stands after it. -/
theorem reportText_append_cons (before after : List (Name × List CodePoint))
    (entry : Name × List CodePoint) :
    reportText (before ++ entry :: after) =
      reportBefore before ++ entryText entry ++ reportAfter after := by
  rw [reportText, List.map_append, List.map_cons, intercalate_append_cons]
  simp only [reportBefore, reportAfter, List.flatMap_map, List.append_assoc]

/-- Deliveries that a report cannot tell apart: they are the same, or both cost the entry. -/
def Delivery.Alike (settings : Settings) (d d' : Delivery) : Prop :=
  d = d' ∨ d.fails settings = true ∧ d'.fails settings = true

section Alike

variable {settings : Settings}

theorem Delivery.Alike.fails_eq {d d' : Delivery} (h : d.Alike settings d') :
    d.fails settings = d'.fails settings := by
  rcases h with rfl | ⟨hd, hd'⟩
  · rfl
  · rw [hd, hd']

theorem Delivery.Alike.segment_eq {d d' : Delivery} (h : d.Alike settings d') :
    d.segment settings = d'.segment settings := by
  rcases h with rfl | ⟨hd, hd'⟩
  · rfl
  · rw [Delivery.segment, Delivery.segment, if_pos hd, if_pos hd']

variable {delivered delivered' : List (Entry × Delivery)}

/-- Alike deliveries under the same names leave the same entries, and lose the same ones. -/
theorem segments_eq_of_alike
    (h : List.Forall₂ (fun p q => p.1.name = q.1.name ∧ p.2.Alike settings q.2)
      delivered delivered') :
    segments settings delivered = segments settings delivered' ∧
      lostNames settings delivered = lostNames settings delivered' := by
  induction h with
  | nil => exact ⟨rfl, rfl⟩
  | @cons p q rest rest' hpq _ ih =>
      obtain ⟨hname, halike⟩ := hpq
      obtain ⟨hsegments, hlost⟩ := ih
      constructor
      · simp only [segments, List.map_cons] at hsegments ⊢
        rw [hsegments, hname, halike.segment_eq]
      · simp only [lostNames, List.filter_cons, halike.fails_eq] at hlost ⊢
        split
        · rw [List.map_cons, List.map_cons, hlost, hname]
        · exact hlost

end Alike

namespace Assembly

/-- With isolation, nothing of a fault but its marker gets into a report.  Two runs whose
deliveries differ in failed ones only, under the same names, give the same assembly, whatever
the faults were, whatever was appended before them, and whatever the sinks, files and metrics
are.  And where the delivery under one name is exchanged for any other, failed or not, all that
stands before and after the entry of that name stays as it was. -/
theorem faults_do_not_leak (settings : Settings) (hisolate : settings.isolateFaults = true)
    (sink sink' : Sink) (w w' : World) (registry registry' : Registry)
    (hordinary : registry.IsOrdinary) (hordinary' : registry'.IsOrdinary) (full : Value) :
    (List.Forall₂ (fun p q => p.1.name = q.1.name ∧ p.2.Alike settings q.2)
        (registry.deliveries w full) (registry'.deliveries w' full) →
      ∃ v v' a, run settings sink w registry full = (v, .ok a) ∧
        run settings sink' w' registry' full = (v', .ok a)) ∧
    ∀ before p q after, registry.deliveries w full = before ++ p :: after →
      registry'.deliveries w' full = before ++ q :: after → p.1.name = q.1.name →
      ∃ v v' a b, run settings sink w registry full = (v, .ok a) ∧
        run settings sink' w' registry' full = (v', .ok b) ∧
        a.text = reportBefore (segments settings before) ++
          entryText (p.1.name, p.2.segment settings) ++ reportAfter (segments settings after) ∧
        b.text = reportBefore (segments settings before) ++
          entryText (p.1.name, q.2.segment settings) ++
          reportAfter (segments settings after) := by
  obtain ⟨v, hrun, -⟩ := run_isolated hisolate sink w hordinary full
  obtain ⟨v', hrun', -⟩ := run_isolated hisolate sink' w' hordinary' full
  constructor
  · intro halike
    obtain ⟨hsegments, hlost⟩ := segments_eq_of_alike halike
    have hsize : registry.size = registry'.size := by
      have hlength := halike.length_eq
      rwa [Registry.deliveries, Registry.deliveries, length_deliveries,
        length_deliveries] at hlength
    rw [hsegments, hlost, hsize] at hrun
    exact ⟨v, v', _, hrun, hrun'⟩
  · intro before p q after hsplit hsplit' hname
    refine ⟨v, v', _, _, hrun, hrun', ?_, ?_⟩
    · rw [hsplit, segments, List.map_append, List.map_cons, reportText_append_cons]
      rfl
    · rw [hsplit', segments, List.map_append, List.map_cons, reportText_append_cons, hname]
      rfl

end Assembly

/-- The sample registry, but for the fault of its second provider. -/
def Registry.altered : Registry where
  entries := Registry.sample.entries.modify 1 fun e =>
    { e with provider := scripted 1 .plain [.raise (.raised "KeyError" [.text "token"]) none] }
  names_nodup := by decide
  callable := by
    intro e he
    simp only [Registry.sample, List.modify_succ_cons, List.modify_zero_cons, List.mem_cons,
      List.not_mem_nil, or_false] at he
    rcases he with rfl | rfl | rfl <;> rfl

theorem Registry.altered_isOrdinary : Registry.altered.IsOrdinary := by
  intro e he call f hf
  simp only [Registry.altered, Registry.sample, List.modify_succ_cons, List.modify_zero_cons,
    List.mem_cons, List.not_mem_nil, or_false] at he
  rcases he with rfl | rfl | rfl
  · cases hf
  · cases hf
    rfl
  · cases hf

/-- A sink that raises every time. -/
def Sink.brokenSample : Sink := .failing (.raised "OSError" [.text "disk full"]) rfl

theorem Assembly.faults_do_not_leak_sample :
    ({} : Settings).isolateFaults = true ∧ Registry.sample.IsOrdinary ∧
      Registry.altered.IsOrdinary ∧
      (∃ v v' a, run {} .none .fresh .sample (.bool true) = (v, .ok a) ∧
        run {} .brokenSample .fresh .altered (.bool true) = (v', .ok a)) ∧
      ∃ v v' a b, run {} .none .fresh .sample (.bool true) = (v, .ok a) ∧
        run {} .brokenSample .fresh .altered (.bool true) = (v', .ok b) ∧
        a.text = Text.points "\x7b\"memory_stats\":\x7b\"files\":\x7b\"open\":2\x7d," ++
          Text.points "\"users\":\x7b\"error\":\"provider_fault\"\x7d" ++
          Text.points ",\"chats\":\x7b\"error\":\"provider_fault\"\x7d\x7d\x7d" ∧
        b.text = a.text := by
  refine ⟨rfl, Registry.sample_isOrdinary, Registry.altered_isOrdinary, ?_⟩
  have hcontained := faults_do_not_leak {} rfl .none .brokenSample .fresh .fresh .sample .altered
    Registry.sample_isOrdinary Registry.altered_isOrdinary (.bool true)
  constructor
  · apply hcontained.1
    exact .cons ⟨rfl, .inl rfl⟩ (.cons ⟨rfl, .inr ⟨rfl, rfl⟩⟩ (.cons ⟨rfl, .inl rfl⟩ .nil))
  · obtain ⟨v, v', a, b, hrun, hrun', ha, hb⟩ := hcontained.2 [_] _ _ [_] rfl rfl rfl
    exact ⟨v, v', a, b, hrun, hrun', ha, hb.trans ha.symm⟩

end UsageReport
