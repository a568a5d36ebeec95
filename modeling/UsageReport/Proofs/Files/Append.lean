/-
Adding to files.  A path that leads to a file, or to a place where one can be made, leads to the
same place once something was written there: only the last step of the way looks at the place.
So whatever can be added to once can be added to again, and the bytes pile up in order.
-/
import UsageReport.FileTree
import UsageReport.Proofs.Lookup
import UsageReport.Proofs.Text.Bytes

namespace UsageReport

theorem Content.toBytes_append (c : Content) (s : String) :
    (c.append s).toBytes = c.toBytes ++ s.toUTF8.toList := by
  cases c with
  | text t => exact Text.toList_toUTF8_append t s
  | bytes bs => rfl

/-- A file stands at the place, or one can be made there. -/
def Spot.Takes (spot : Spot) (place : TreePath) : Prop :=
  (∃ c, spot = .file place c) ∨ spot = .vacant place false

namespace FileTree

variable {t t' : FileTree} {place : TreePath}

/-- What stands at a place after something was put to a place below the root. -/
theorem node?_put (hplace : place ≠ []) (q : TreePath) (n : Node) :
    (t.put place n).node? q = if q = place then some n else t.node? q := by
  unfold node? put
  by_cases hq : q = []
  · subst hq
    rw [if_pos rfl, if_pos rfl, if_neg (Ne.symm hplace)]
  · rw [if_neg hq, if_neg hq]
    exact lookup_put_ite (putNode place n) rfl (fun _ _ _ => rfl) t.nodes q

/-- What a walk comes to at a name: it goes on from a directory, and ends anywhere else. -/
def enter (t : FileTree) (place : TreePath) (rest : List String) : Except FileRefusal Spot :=
  match t.node? place with
  | some .directory => t.walk place rest
  | some (.file content) => if rest.isEmpty then .ok (.file place content) else .error .notDirectory
  | none => if rest.all (· == "") then .ok (.vacant place !rest.isEmpty) else .error .missing

/-- A part of a path leads to the same place in every tree, or is too long, or is a name. -/
theorem walk_cons_cases (start : TreePath) (part : String) :
    (∃ next, ∀ (t : FileTree) rest, t.walk start (part :: rest) = t.walk next rest) ∨
      (∀ (t : FileTree) rest, t.walk start (part :: rest) = .error .nameTooLong) ∨
      ∀ (t : FileTree) rest, t.walk start (part :: rest) = t.enter (start ++ [part]) rest := by
  by_cases hskip : part = "" ∨ part = "."
  · left
    refine ⟨start, ?_⟩
    intro t rest
    rw [walk, if_pos hskip]
  by_cases hup : part = ".."
  · left
    refine ⟨start.dropLast, ?_⟩
    intro t rest
    rw [walk, if_neg hskip, if_pos hup]
  right
  by_cases hlong : longestName < part.utf8ByteSize
  · left
    intro t rest
    rw [walk, if_neg hskip, if_neg hup, if_pos hlong]
  · right
    intro t rest
    rw [walk, if_neg hskip, if_neg hup, if_neg hlong]
    rfl

theorem enter_file {content : Content} {rest : List String}
    (hfile : t.node? place = some (.file content)) (hrest : rest.isEmpty = true) :
    t.enter place rest = .ok (.file place content) := by
  simp [enter, hfile, hrest]

/-- A walk that ends at a file, or where one can be made, passes only directories before.  So its
last part names the place, and it ends there in any tree that has these directories and a file at
the place. -/
theorem walk_takes {start : TreePath} {parts : List String} {spot : Spot}
    (h : t.walk start parts = .ok spot) (htakes : spot.Takes place) :
    (∃ before last, place = before ++ [last] ∧ parts.getLast? = some last) ∧
      t.node? place ≠ some .directory ∧
      ∀ (t' : FileTree) content,
        (∀ q, t.node? q = some .directory → t'.node? q = some .directory) →
        t'.node? place = some (.file content) →
          t'.walk start parts = .ok (.file place content) := by
  induction parts generalizing start with
  | nil =>
      cases h
      rcases htakes with ⟨c, hc⟩ | hvacant
      · cases hc
      · cases hvacant
  | cons part rest ih =>
      have hlast {last : String} (hrest : rest.getLast? = some last) :
          (part :: rest).getLast? = some last := by
        cases rest with
        | nil => cases hrest
        | cons next more => exact hrest
      rcases walk_cons_cases start part with ⟨next, hnext⟩ | hlong | hname
      · rw [hnext] at h
        obtain ⟨⟨before, last, hplace, hrest⟩, hnode, hwalk⟩ := ih h
        refine ⟨⟨before, last, hplace, hlast hrest⟩, hnode, ?_⟩
        intro t' content hdirectories hfile
        rw [hnext]
        exact hwalk t' content hdirectories hfile
      · rw [hlong] at h
        cases h
      rw [hname] at h
      unfold enter at h
      split at h
      · next hdirectory =>
        obtain ⟨⟨before, last, hplace, hrest⟩, hnode, hwalk⟩ := ih h
        refine ⟨⟨before, last, hplace, hlast hrest⟩, hnode, ?_⟩
        intro t' content hdirectories hfile
        rw [hname]
        simp only [enter, hdirectories _ hdirectory]
        exact hwalk t' content hdirectories hfile
      · next old hold =>
        split at h
        · next hrest =>
          cases h
          rcases htakes with ⟨c, hc⟩ | hvacant
          · cases hc
            refine ⟨⟨start, part, rfl, ?_⟩, by simp [hold], ?_⟩
            · rw [List.isEmpty_iff.mp hrest]
              rfl
            · intro t' content hdirectories hfile
              rw [hname]
              exact enter_file hfile hrest
          · cases hvacant
        · cases h
      · next hnone =>
        split at h
        · cases h
          rcases htakes with ⟨c, hc⟩ | hvacant
          · cases hc
          · obtain ⟨rfl, hasked⟩ := Spot.vacant.inj hvacant
            have hrest : rest.isEmpty = true := by simpa using hasked
            refine ⟨⟨start, part, rfl, ?_⟩, by simp [hnone], ?_⟩
            · rw [List.isEmpty_iff.mp hrest]
              rfl
            · intro t' content hdirectories hfile
              rw [hname]
              exact enter_file hfile hrest
        · cases h

theorem locate_takes {path : String} {spot : Spot} (h : t.locate path = .ok spot)
    (htakes : spot.Takes place) :
    (∃ before last, place = before ++ [last] ∧ (parts path).getLast? = some last) ∧
      t.node? place ≠ some .directory ∧
      ∀ (t' : FileTree) content,
        (∀ q, t.node? q = some .directory → t'.node? q = some .directory) →
        t'.node? place = some (.file content) → t'.locate path = .ok (.file place content) := by
  unfold locate at h
  split at h
  · cases h
  · next hpath =>
    split at h
    · cases h
    · next hlong =>
      obtain ⟨hlast, hnode, hwalk⟩ := walk_takes h htakes
      refine ⟨hlast, hnode, ?_⟩
      intro t' content hdirectories hfile
      rw [locate, if_neg hpath, if_neg hlong]
      exact hwalk t' content hdirectories hfile

theorem locate_put_file {path : String} {spot : Spot} (h : t.locate path = .ok spot)
    (htakes : spot.Takes place) (content : Content) :
    (t.put place (.file content)).locate path = .ok (.file place content) := by
  obtain ⟨⟨before, last, rfl, -⟩, hnode, hlocate⟩ := locate_takes h htakes
  have hplace : before ++ [last] ≠ [] := by simp
  apply hlocate
  · intro q hq
    have hother : q ≠ before ++ [last] := by
      rintro rfl
      exact hnode hq
    rw [node?_put hplace, if_neg hother, hq]
  · rw [node?_put hplace, if_pos rfl]

/-! ### The bytes of a file -/

/-- The bytes of a file; none where there is no file. -/
def fileBytes (t : FileTree) (path : String) : List UInt8 :=
  match t.readFile path with
  | .ok content => content.toBytes
  | .error _ => []

/-- Something can be added to a file, or one can be made. -/
def OpensFile (t : FileTree) (path : String) : Prop :=
  hasNull path = false ∧ ∃ spot place, t.locate path = .ok spot ∧ spot.Takes place

/-- The bytes of the file that a path leads to; none where it leads to no file. -/
def bytesAt (t : FileTree) : PathName → List UInt8
  | .text path => t.fileBytes path
  | .escaped points => t.fileBytes (PathName.escaped points).shown
  | .broken _ _ => []

/-- Something can be added to what a path leads to. -/
def Opens (t : FileTree) : PathName → Prop
  | .text path => t.OpensFile path
  | .escaped points => t.OpensFile (PathName.escaped points).shown
  | .broken _ _ => False

theorem appendFile_of_opens {path : String} (h : t.OpensFile path) (s : String) :
    ∃ t', t.appendFile path s = .ok t' ∧ t'.OpensFile path ∧
      t'.fileBytes path = t.fileBytes path ++ s.toUTF8.toList := by
  obtain ⟨hnull, spot, place, hlocate, htakes⟩ := h
  have hread (content : Content) : (t.put place (.file content)).OpensFile path ∧
      (t.put place (.file content)).fileBytes path = content.toBytes := by
    have hthere := locate_put_file hlocate htakes content
    exact ⟨⟨hnull, _, place, hthere, .inl ⟨content, rfl⟩⟩,
      by simp [fileBytes, readFile, hnull, hthere]⟩
  rcases htakes with ⟨old, rfl⟩ | rfl
  · obtain ⟨hopens, hbytes⟩ := hread (old.append s)
    refine ⟨t.put place (.file (old.append s)), ?_, hopens, ?_⟩
    · simp [appendFile, hnull, hlocate]
    · rw [hbytes, Content.toBytes_append]
      simp [fileBytes, readFile, hnull, hlocate]
  · obtain ⟨hopens, hbytes⟩ := hread (.text s)
    refine ⟨t.put place (.file (.text s)), ?_, hopens, ?_⟩
    · simp [appendFile, hnull, hlocate]
    · rw [hbytes]
      simp [fileBytes, readFile, hnull, hlocate, Content.toBytes, refuse, fail]

/-- What can be added to takes any text behind its bytes, and can be added to again. -/
theorem appendName_of_opens {path : PathName} (h : t.Opens path) (s : String) :
    ∃ t', t.appendName path s = .ok t' ∧ t'.Opens path ∧
      t'.bytesAt path = t.bytesAt path ++ s.toUTF8.toList := by
  cases path with
  | broken points fault => exact h.elim
  | text path => exact appendFile_of_opens h s
  | escaped points => exact appendFile_of_opens h s

theorem opens_of_appendFile {path s : String} (h : t.appendFile path s = .ok t') :
    t.OpensFile path := by
  rw [appendFile] at h
  split at h
  · cases h
  · next hnull =>
    refine ⟨Bool.eq_false_iff.mpr hnull, ?_⟩
    split at h
    · cases h
    · next place old hlocate => exact ⟨_, place, hlocate, .inl ⟨old, rfl⟩⟩
    · cases h
    · next place asDirectory hlocate =>
      split at h
      · cases h
      · next hfile =>
        rw [Bool.not_eq_true] at hfile
        subst hfile
        exact ⟨_, place, hlocate, .inr rfl⟩

/-- Where something was added, it could be. -/
theorem opens_of_appendName {path : PathName} {s : String}
    (h : t.appendName path s = .ok t') : t.Opens path := by
  cases path with
  | broken points fault => cases h
  | text path => exact opens_of_appendFile h
  | escaped points => exact opens_of_appendFile h

end FileTree

end UsageReport
