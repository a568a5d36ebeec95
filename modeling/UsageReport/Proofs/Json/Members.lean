/-
Objects as dictionaries.  Where no name stands twice, the rule for repeated names changes
nothing, and the value of an object lists its members in the order of the text.
-/
import Mathlib.Data.List.Induction
import Mathlib.Data.List.Nodup
import UsageReport.Json.Basic
import UsageReport.Proofs.Lookup

namespace UsageReport.Json

open Text (CodePoint)

variable {α : Type}

theorem putMember_of_not_mem {name : List CodePoint} (content : α)
    {members : List (List CodePoint × α)} (h : name ∉ members.map (·.1)) :
    putMember name content members = members ++ [(name, content)] :=
  put_ite_of_not_mem (putMember name content) rfl (fun _ _ _ => rfl) h

/-- Members under names that all differ stay as they are. -/
theorem lastWins_of_nodup {members : List (List CodePoint × α)}
    (h : (members.map (·.1)).Nodup) : lastWins members = members := by
  suffices hfold : ∀ done : List (List CodePoint × α),
      ((done ++ members).map (·.1)).Nodup →
        members.foldl (fun done m => putMember m.1 m.2 done) done = done ++ members by
    simpa [lastWins] using hfold [] (by simpa using h)
  clear h
  intro done
  induction members generalizing done with
  | nil => simp
  | cons member rest ih =>
      intro hnodup
      have hnew : member.1 ∉ done.map (·.1) := by
        rw [List.map_append, List.map_cons] at hnodup
        exact fun hmem => List.disjoint_of_nodup_append hnodup hmem List.mem_cons_self
      rw [List.foldl_cons, putMember_of_not_mem _ hnew, ih _ (by simpa using hnodup)]
      simp

theorem names_putMember (name : List CodePoint) (content : α)
    (members : List (List CodePoint × α)) :
    (putMember name content members).map (·.1) =
      if name ∈ members.map (·.1) then members.map (·.1) else members.map (·.1) ++ [name] :=
  keys_put_ite (putMember name content) rfl (fun _ _ _ => rfl) members

theorem lastWins_append_singleton (members : List (List CodePoint × α))
    (m : List CodePoint × α) :
    lastWins (members ++ [m]) = putMember m.1 m.2 (lastWins members) := by
  rw [lastWins, List.foldl_append, List.foldl_cons, List.foldl_nil, ← lastWins]

/-- No name is left twice. -/
theorem names_lastWins_nodup (members : List (List CodePoint × α)) :
    ((lastWins members).map (·.1)).Nodup := by
  induction members using List.reverseRecOn with
  | nil => exact List.nodup_nil
  | append_singleton before m ih =>
      rw [lastWins_append_singleton]
      exact nodup_keys_put (names_putMember m.1 m.2 _) ih

theorem mem_names_lastWins {name : List CodePoint} {members : List (List CodePoint × α)} :
    name ∈ (lastWins members).map (·.1) ↔ name ∈ members.map (·.1) := by
  induction members using List.reverseRecOn with
  | nil => rfl
  | append_singleton before m ih =>
      rw [lastWins_append_singleton, names_putMember, List.map_append, List.mem_append, ← ih]
      split
      · next hold =>
        refine ⟨.inl, fun h => h.elim id fun hm => ?_⟩
        rwa [List.mem_singleton.mp hm]
      · rw [List.mem_append]
        rfl

/-- Under a name stands what was given last under it. -/
theorem lookup_lastWins (members : List (List CodePoint × α)) (name : List CodePoint) :
    (lastWins members).lookup name =
      ((members.filter fun m => m.1 = name).getLast?).map (·.2) := by
  induction members using List.reverseRecOn with
  | nil => rfl
  | append_singleton before m ih =>
      rw [lastWins_append_singleton,
        lookup_put_ite (putMember m.1 m.2) rfl (fun _ _ _ => rfl), ih, List.filter_append]
      by_cases hname : m.1 = name
      · rw [if_pos hname.symm, List.filter_cons_of_pos (by simpa using hname), List.filter_nil,
          List.getLast?_concat]
        rfl
      · rw [if_neg (Ne.symm hname), List.filter_cons_of_neg (by simpa using hname),
          List.filter_nil, List.append_nil]

theorem toMembers_eq_map (members : List (List CodePoint × Document)) :
    Document.toMembers members = members.map fun m => (m.1, m.2.toValue) := by
  induction members with
  | nil => rfl
  | cons member rest ih =>
      obtain ⟨name, d⟩ := member
      rw [Document.toMembers, ih, List.map_cons]

/-- The value of an object whose names all differ. -/
theorem toValue_object_of_nodup {members : List (List CodePoint × Document)}
    (h : (members.map (·.1)).Nodup) :
    (Document.object members).toValue =
      .dict (members.map fun m => (Value.ofPoints m.1, m.2.toValue)) := by
  have hnodup : ((members.map fun m => (m.1, m.2.toValue)).map (·.1)).Nodup := by
    simpa [Function.comp_def] using h
  rw [Document.toValue, toMembers_eq_map, lastWins_of_nodup hnodup, List.map_map]
  rfl

/-- The value of an object with one member. -/
theorem toValue_object_singleton (name : List CodePoint) (d : Document) :
    (Document.object [(name, d)]).toValue = .dict [(Value.ofPoints name, d.toValue)] := rfl

end UsageReport.Json
