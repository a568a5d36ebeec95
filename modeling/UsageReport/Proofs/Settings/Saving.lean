/-
Saving a configuration.  Whatever stops a save, the files are as they were before; directories
that were missing may have been made.  A save that succeeds changes the file that the path leads
to, and no other.
-/
import UsageReport.Proofs.Files.Directories
import UsageReport.Settings.Storage

namespace UsageReport.ConfigFile

variable {t t' : FileTree} {obstacle : Option Obstacle} {words : Nat → String}
  {temporary : TreePath} {path : String} {c : ConfigFile}

/-! ### The steps of a save -/

theorem openHome_adds (obstacle : Option Obstacle) (t : FileTree) (path : String) :
    t.AddsDirectories (openHome obstacle t path).1 := by
  unfold openHome
  split
  · exact FileTree.ensure_adds t _
  · have hensure := FileTree.ensure_adds t (PathName.homeOf path)
    split
    · next made f hmade =>
      rw [hmade] at hensure
      exact hensure
    · next made hmade =>
      rw [hmade] at hensure
      split <;> exact hensure

theorem freeName?_eq_some {directory : TreePath} {fuel n : Nat} {name : String}
    (h : freeName? t directory words fuel n = some name) :
    t.node? (directory ++ [name]) = none ∧ ∃ k, name = temporaryName (words k) := by
  induction fuel generalizing n with
  | zero => cases h
  | succ fuel ih =>
      rw [freeName?] at h
      split at h
      · next hnone =>
        cases h
        exact ⟨hnone, n, rfl⟩
      · exact ih h

/-- A temporary file is made where nothing is, under a name that was drawn. -/
theorem drawPlace_eq_ok {directory : TreePath}
    (h : drawPlace obstacle t directory words = .ok temporary) :
    t.node? temporary = none ∧ ∃ k, temporary = directory ++ [temporaryName (words k)] := by
  unfold drawPlace at h
  split at h
  · cases h
  · split at h
    · next name hname =>
      cases h
      obtain ⟨hnone, k, rfl⟩ := freeName?_eq_some hname
      exact ⟨hnone, k, rfl⟩
    · cases h

theorem node?_fill (htemporary : temporary ≠ []) (obstacle : Option Obstacle) (t : FileTree)
    (c : ConfigFile) {q : TreePath} (hq : q ≠ temporary) :
    (fill obstacle t temporary c).1.node? q = t.node? q := by
  unfold fill
  split
  · rw [FileTree.node?_put htemporary, if_neg hq]
  · split
    · rfl
    · rw [FileTree.node?_put htemporary, if_neg hq]

theorem fill_eq_ok (h : fill obstacle t temporary c = (t', .ok ())) :
    ∃ s, c.text = .ok s ∧ t' = t.put temporary (.file (.bytes s.toUTF8.toList)) := by
  unfold fill at h
  split at h
  · cases h
  · split at h
    · cases h
    · next s htext =>
      cases h
      exact ⟨s, htext, rfl⟩

/-- A move that is refused leaves the tree as it is. -/
theorem install_eq_error {current : String} {f : Fault}
    (h : install obstacle t temporary current path = (t', .error f)) : t' = t := by
  unfold install at h
  split at h
  · cases h
    rfl
  · split at h
    · cases h
    · cases h
      rfl

/-- A move puts the file where the path leads to. -/
theorem install_eq_ok {current : String} {content : Content}
    (hfile : t.node? temporary = some (.file content))
    (h : install obstacle t temporary current path = (t', .ok ())) :
    FileTree.hasNull path = false ∧ ∃ spot target, t.locate path = .ok spot ∧
      spot.Takes target ∧ t' = (t.erase temporary).put target (.file content) := by
  unfold install at h
  split at h
  · cases h
  split at h
  · next moved hmove =>
    cases h
    unfold FileTree.moveFile at hmove
    simp only [hfile] at hmove
    split at hmove
    · cases hmove
    · next hnull =>
      refine ⟨Bool.eq_false_iff.mpr hnull, ?_⟩
      split at hmove
      · cases hmove
      · split at hmove
        · cases hmove
        · split at hmove <;> cases hmove
      · next target old hlocate =>
        cases hmove
        exact ⟨_, target, hlocate, Or.inl ⟨old, rfl⟩, rfl⟩
      · next target asDirectory hlocate =>
        split at hmove
        · cases hmove
        · next hasked =>
          cases hmove
          rw [Bool.not_eq_true] at hasked
          subst hasked
          exact ⟨_, target, hlocate, Or.inr rfl, rfl⟩
  · cases h

theorem node?_sweep (htemporary : temporary ≠ []) (t : FileTree) (q : TreePath) :
    (sweep t temporary).node? q = if q = temporary then none else t.node? q := by
  unfold sweep
  split
  · exact FileTree.node?_erase htemporary q
  · next hgone =>
    rw [Option.not_isSome_iff_eq_none] at hgone
    by_cases hq : q = temporary
    · rw [if_pos hq, hq, hgone]
    · rw [if_neg hq]

/-! ### A whole save -/

/-- What a save did that succeeded.  In the tree with its directory made, `opened`, the text of
the configuration went into a file at a place that was free, and from there to the target; the
place is free again. -/
structure Saved (t t' : FileTree) (words : Nat → String) (path : String) (c : ConfigFile)
    (opened : FileTree) (s : String) (temporary target : TreePath) : Prop where
  adds : t.AddsDirectories opened
  text : c.text = .ok s
  free : opened.node? temporary = none
  drawn : ∃ directory k, temporary = directory ++ [temporaryName (words k)]
  path_sound : FileTree.hasNull path = false
  leads : ∃ (filled : FileTree) (spot : Spot), (∀ q, filled.node? q = if q = temporary
      then some (.file (.bytes s.toUTF8.toList)) else opened.node? q) ∧
    filled.locate path = .ok spot ∧ spot.Takes target
  node : ∀ q, t'.node? q = if q = temporary then none
    else if q = target then some (.file (.bytes s.toUTF8.toList)) else opened.node? q

/-- A save that was stopped after the temporary file was made leaves the tree as it was then. -/
theorem sweep_adds {opened filled : FileTree} (htemporary : temporary ≠ [])
    (hopened : t.AddsDirectories opened) (hfree : opened.node? temporary = none)
    (hfilled : ∀ q, q ≠ temporary → filled.node? q = opened.node? q) :
    t.AddsDirectories (sweep filled temporary) := by
  intro q
  have hswept : (sweep filled temporary).node? q = opened.node? q := by
    rw [node?_sweep htemporary]
    by_cases hq : q = temporary
    · rw [if_pos hq, hq, hfree]
    · rw [if_neg hq, hfilled q hq]
  rw [hswept]
  exact hopened q

/-- A save fails with nothing but directories added, or it succeeds with the target changed. -/
theorem saveUnder_cases (obstacle : Option Obstacle) (t : FileTree) (current : String)
    (words : Nat → String) (path : String) (c : ConfigFile) :
    (∃ t' f, saveUnder obstacle t current words path c = (t', .error f) ∧
      t.AddsDirectories t') ∨
    ∃ t' opened s temporary target,
      saveUnder obstacle t current words path c = (t', .ok path) ∧
        Saved t t' words path c opened s temporary target := by
  have hopened := openHome_adds obstacle t path
  unfold saveUnder
  split
  · next opened f hopen =>
    rw [hopen] at hopened
    exact Or.inl ⟨opened, f, rfl, hopened⟩
  next opened directory hopen =>
  rw [hopen] at hopened
  split
  · next f hdraw => exact Or.inl ⟨opened, f, rfl, hopened⟩
  next temporary hdraw =>
  obtain ⟨hfree, k, hname⟩ := drawPlace_eq_ok hdraw
  have htemporary : temporary ≠ [] := by simp [hname]
  have helsewhere (q : TreePath) (hq : q ≠ temporary) :
      (fill obstacle (opened.put temporary (.file (.bytes []))) temporary c).1.node? q =
        opened.node? q := by
    rw [node?_fill htemporary _ _ _ hq, FileTree.node?_put htemporary, if_neg hq]
  split
  · next filled f hfill =>
    rw [hfill] at helsewhere
    exact Or.inl ⟨_, f, rfl, sweep_adds htemporary hopened hfree helsewhere⟩
  next filled hfill =>
  rw [hfill] at helsewhere
  split
  · next moved f hinstall =>
    rw [install_eq_error hinstall]
    exact Or.inl ⟨_, f, rfl, sweep_adds htemporary hopened hfree helsewhere⟩
  next moved hinstall =>
  right
  obtain ⟨s, htext, rfl⟩ := fill_eq_ok hfill
  -- The tree in which the temporary file holds the text.
  have hfilled (q : TreePath) :
      ((opened.put temporary (.file (.bytes []))).put temporary
        (.file (.bytes s.toUTF8.toList))).node? q =
      if q = temporary then some (.file (.bytes s.toUTF8.toList)) else opened.node? q := by
    rw [FileTree.node?_put htemporary, FileTree.node?_put htemporary]
    split <;> rfl
  have hfile := (hfilled temporary).trans (if_pos rfl)
  obtain ⟨hnull, spot, target, hlocate, htakes, rfl⟩ := install_eq_ok hfile hinstall
  obtain ⟨⟨before, last, htarget, -⟩, -, -⟩ := FileTree.locate_takes hlocate htakes
  have htarget : target ≠ [] := by simp [htarget]
  refine ⟨_, opened, s, temporary, target, rfl, ?_⟩
  exact
    { adds := hopened
      text := htext
      free := hfree
      drawn := ⟨directory, k, hname⟩
      path_sound := hnull
      leads := ⟨_, spot, hfilled, hlocate, htakes⟩
      node := by
        intro q
        rw [node?_sweep htemporary]
        by_cases hq : q = temporary
        · rw [if_pos hq, if_pos hq]
        · rw [if_neg hq, if_neg hq, FileTree.node?_put htarget, FileTree.node?_erase htemporary,
            if_neg hq, hfilled, if_neg hq] }

/-- The temporary file stands where nothing was. -/
theorem Saved.ne_temporary {opened : FileTree} {s : String} {target : TreePath}
    (h : Saved t t' words path c opened s temporary target) {q : TreePath} {n : Node}
    (hn : t.node? q = some n) : q ≠ temporary := by
  rintro rfl
  have hopened := h.adds.keeps hn
  rw [h.free] at hopened
  cases hopened

/-- A save that succeeded keeps what was there, apart from the content of the target. -/
theorem Saved.keeps {opened : FileTree} {s : String} {target : TreePath}
    (h : Saved t t' words path c opened s temporary target) {q : TreePath} {n : Node}
    (hn : t.node? q = some n) :
    t'.node? q = some n ∨ ∃ old, n = .file old ∧ ∃ new, t'.node? q = some (.file new) := by
  have hopened := h.adds.keeps hn
  have htemporary := h.ne_temporary hn
  rw [h.node q, if_neg htemporary]
  by_cases hq : q = target
  · right
    obtain ⟨filled, spot, hfilled, hlocate, htakes⟩ := h.leads
    obtain ⟨-, hnode, -⟩ := FileTree.locate_takes hlocate htakes
    rw [← hq, hfilled, if_neg htemporary, hopened] at hnode
    cases n with
    | directory => exact absurd rfl hnode
    | file old => exact ⟨old, rfl, _, if_pos hq⟩
  · left
    rw [if_neg hq, hopened]

/-- Whatever stops a save, at whatever step, all files are there with their contents as before,
the target among them, and no others; what else is new are directories, which in a tree where
everything stands in a directory hold no file.  However a save ends, no directory and no file that
was there before is gone. -/
theorem save_is_all_or_nothing (obstacle : Option Obstacle) (t : FileTree) (current : String)
    (words : Nat → String) (path : String) (c : ConfigFile) :
    (∀ f, (saveUnder obstacle t current words path c).2 = .error f →
      (∀ q content, (saveUnder obstacle t current words path c).1.node? q = some (.file content) ↔
        t.node? q = some (.file content)) ∧
      ∀ q n, t.node? q = none → (saveUnder obstacle t current words path c).1.node? q = some n →
        n = .directory ∧ (t.Rooted → ∀ rest content,
          (saveUnder obstacle t current words path c).1.node? (q ++ rest) ≠
            some (.file content))) ∧
    (∀ q, t.node? q = some .directory →
      (saveUnder obstacle t current words path c).1.node? q = some .directory) ∧
    ∀ q old, t.node? q = some (.file old) →
      ∃ new, (saveUnder obstacle t current words path c).1.node? q = some (.file new) := by
  rcases saveUnder_cases obstacle t current words path c with
    ⟨t', f, hsave, hadds⟩ | ⟨t', opened, s, temporary, target, hsave, hsaved⟩
  · rw [hsave]
    refine ⟨?_, ?_, ?_⟩
    · intro _ _
      refine ⟨hadds.file_iff, ?_⟩
      intro q n hnone hn
      constructor
      · rcases hadds q with hsame | ⟨-, hdirectory⟩
        · rw [hsame, hnone] at hn
          cases hn
        · rw [hn] at hdirectory
          exact Option.some.inj hdirectory
      · intro hrooted rest content hfile
        rw [hadds.file_iff, hrooted.below_vacant hnone] at hfile
        cases hfile
    · intro q hq
      exact hadds.keeps hq
    · intro q old hq
      exact ⟨old, hadds.keeps hq⟩
  · rw [hsave]
    refine ⟨?_, ?_, ?_⟩
    · intro f hf
      cases hf
    · intro q hq
      rcases hsaved.keeps hq with hsame | ⟨old, hold, -⟩
      · exact hsame
      · cases hold
    · intro q old hq
      rcases hsaved.keeps hq with hsame | ⟨-, -, new, hnew⟩
      · exact ⟨old, hsame⟩
      · exact ⟨new, hnew⟩

/-- A disk that is full once one byte is written: the old file of the same name is there, and all
that is new is an empty directory. -/
theorem save_is_all_or_nothing_sample :
    let t : FileTree := ⟨[(["c.json"], .file (.text "old"))]⟩
    let full : Fault := .raised "OSError" [.int 28, .text "No space left on device"]
    let saved := saveUnder (some (.writing [123] full)) t "/" (fun _ => "a") "new/c.json" {}
    saved.2 = .error full ∧ saved.1.node? ["c.json"] = some (.file (.text "old")) ∧
      saved.1.node? ["new"] = some .directory ∧
      ∀ rest content, saved.1.node? ("new" :: rest) ≠ some (.file content) := by
  intro t full saved
  have hfails : saved.2 = .error full := rfl
  have hrooted : t.Rooted := by
    intro q name n hn
    unfold FileTree.node? at hn
    rw [if_neg (by simp), lookup_cons_ite] at hn
    split at hn
    · next hq =>
      cases q with
      | nil => rfl
      | cons first rest => simp at hq
    · cases hn
  obtain ⟨hstopped, -, -⟩ :=
    save_is_all_or_nothing (some (.writing [123] full)) t "/" (fun _ => "a") "new/c.json" {}
  obtain ⟨hfiles, hnew⟩ := hstopped full hfails
  have hmade : saved.1.node? ["new"] = some .directory := by decide +kernel
  obtain ⟨-, hempty⟩ := hnew ["new"] .directory rfl hmade
  exact ⟨hfails, (hfiles _ _).mpr rfl, hmade, hempty hrooted⟩

end UsageReport.ConfigFile
