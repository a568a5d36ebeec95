/-
Making directories, and taking a file away.  However far a directory and those above it can be
made, whatever was there before is still there, and nothing but directories came in.
-/
import Mathlib.Data.List.Induction
import UsageReport.Proofs.Files.Append

namespace UsageReport.FileTree

variable {t t' t'' : FileTree} {place : TreePath}

/-- The second tree is the first one with directories where nothing was. -/
def AddsDirectories (t t' : FileTree) : Prop :=
  ∀ q, t'.node? q = t.node? q ∨ t.node? q = none ∧ t'.node? q = some .directory

namespace AddsDirectories

theorem refl (t : FileTree) : t.AddsDirectories t := fun _ => Or.inl rfl

theorem trans (h : t.AddsDirectories t') (h' : t'.AddsDirectories t'') :
    t.AddsDirectories t'' := by
  intro q
  rcases h' q with hsame | ⟨hnone, hnew⟩
  · rw [hsame]
    exact h q
  · right
    refine ⟨?_, hnew⟩
    rcases h q with hsame | ⟨-, hdirectory⟩
    · rw [← hsame, hnone]
    · rw [hnone] at hdirectory
      cases hdirectory

/-- What is there stays. -/
theorem keeps (h : t.AddsDirectories t') {q : TreePath} {n : Node} (hn : t.node? q = some n) :
    t'.node? q = some n := by
  rcases h q with hsame | ⟨hnone, -⟩
  · rw [hsame, hn]
  · rw [hn] at hnone
    cases hnone

theorem file_iff (h : t.AddsDirectories t') (q : TreePath) (content : Content) :
    t'.node? q = some (.file content) ↔ t.node? q = some (.file content) := by
  constructor
  · intro hfile
    rcases h q with hsame | ⟨-, hdirectory⟩
    · rw [← hsame, hfile]
    · rw [hfile] at hdirectory
      cases hdirectory
  · exact h.keeps

end AddsDirectories

theorem addsDirectories_put (hplace : place ≠ []) (hnone : t.node? place = none) :
    t.AddsDirectories (t.put place .directory) := by
  intro q
  rw [node?_put hplace]
  by_cases hq : q = place
  · right
    rw [if_pos hq, hq]
    exact ⟨hnone, rfl⟩
  · left
    rw [if_neg hq]

/-! ### Files and vacant places -/

/-- The tree has a file where the spot says so, and nothing where the spot is vacant. -/
def Finds (t : FileTree) : Spot → Prop
  | .directory _ => True
  | .file place content => t.node? place = some (.file content)
  | .vacant place _ => place ≠ [] ∧ t.node? place = none

/-- Everything in the tree stands in a directory. -/
def Rooted (t : FileTree) : Prop :=
  ∀ q name n, t.node? (q ++ [name]) = some n → t.node? q = some .directory

/-- Nothing stands below a vacant place. -/
theorem Rooted.below_vacant (hrooted : t.Rooted) (hnone : t.node? place = none)
    (rest : TreePath) : t.node? (place ++ rest) = none := by
  induction rest using List.reverseRecOn with
  | nil => rw [List.append_nil, hnone]
  | append_singleton rest name ih =>
      rw [← List.append_assoc]
      cases hnode : t.node? (place ++ rest ++ [name]) with
      | none => rfl
      | some n =>
          have habove := hrooted _ _ _ hnode
          rw [ih] at habove
          cases habove

/-- A walk finds a file where one stands, and nothing where nothing does. -/
theorem walk_finds {start : TreePath} {parts : List String} {spot : Spot}
    (h : t.walk start parts = .ok spot) : t.Finds spot := by
  induction parts generalizing start with
  | nil =>
      cases h
      trivial
  | cons part rest ih =>
      rcases walk_cons_cases start part with ⟨next, hnext⟩ | hlong | hname
      · rw [hnext] at h
        exact ih h
      · rw [hlong] at h
        cases h
      rw [hname] at h
      unfold enter at h
      split at h
      · exact ih h
      · next content hfile =>
        split at h
        · cases h
          exact hfile
        · cases h
      · next hnone =>
        split at h
        · cases h
          exact ⟨by simp, hnone⟩
        · cases h

theorem locate_finds {path : String} {spot : Spot} (h : t.locate path = .ok spot) :
    t.Finds spot := by
  unfold locate at h
  split at h
  · cases h
  · split at h
    · cases h
    · exact walk_finds h

/-! ### Making directories -/

theorem makeDirectory_adds {path : String} (h : t.makeDirectory path = .ok t') :
    t.AddsDirectories t' := by
  unfold makeDirectory at h
  split at h
  · cases h
  split at h
  · cases h
  split at h
  · cases h
  · next spot asDirectory hlocate =>
    cases h
    obtain ⟨hspot, hnone⟩ := locate_finds hlocate
    exact addsDirectories_put hspot hnone
  · cases h

theorem ensureDirectory_adds (t : FileTree) (path : String) :
    t.AddsDirectories (t.ensureDirectory path).1 := by
  unfold ensureDirectory
  split
  · next made hmade => exact makeDirectory_adds hmade
  · split
    · split <;> exact .refl t
    · exact .refl t

theorem makeDirectories_adds (fuel : Nat) (t : FileTree) (path : String) :
    t.AddsDirectories (makeDirectories fuel t path).1 := by
  induction fuel generalizing t path with
  | zero => exact ensureDirectory_adds t path
  | succ fuel ih =>
      simp only [makeDirectories]
      split
      · exact ensureDirectory_adds t path
      · -- The directories above come first, and the last one is made on top of them.
        have habove := ih t (splitName path).1
        split
        · next above f hmade =>
          rw [hmade] at habove
          split
          · split
            · exact habove
            · exact habove.trans (ensureDirectory_adds above path)
          · exact habove
        · next above hmade =>
          rw [hmade] at habove
          split
          · exact habove
          · exact habove.trans (ensureDirectory_adds above path)

theorem ensure_adds (t : FileTree) (path : String) : t.AddsDirectories (t.ensure path).1 :=
  makeDirectories_adds path.length t path

/-! ### Taking away -/

theorem lookup_filter_ne (place q : TreePath) (nodes : List (TreePath × Node)) :
    (nodes.filter (·.1 != place)).lookup q = if q = place then none else nodes.lookup q := by
  induction nodes with
  | nil => simp
  | cons first rest ih =>
      obtain ⟨p, n⟩ := first
      by_cases hp : p = place
      · rw [List.filter_cons_of_neg (by simp [hp]), ih, lookup_cons_ite, hp]
        split <;> rfl
      · rw [List.filter_cons_of_pos (by simp [hp]), lookup_cons_ite, lookup_cons_ite, ih]
        by_cases hq : q = p
        · have hother : q ≠ place := by
            rw [hq]
            exact hp
          rw [if_pos hq, if_pos hq, if_neg hother]
        · rw [if_neg hq, if_neg hq]

/-- What stands at a place after something below the root was taken away. -/
theorem node?_erase (hplace : place ≠ []) (q : TreePath) :
    (t.erase place).node? q = if q = place then none else t.node? q := by
  unfold node? erase
  by_cases hq : q = []
  · rw [if_pos hq, if_pos hq, if_neg (by rw [hq]; exact Ne.symm hplace)]
  · rw [if_neg hq, if_neg hq]
    exact lookup_filter_ne place q t.nodes

end UsageReport.FileTree
