/-
Configurations that are saved and loaded.  What validation made is in the form in which
validation leaves it alone: numbers lie within their bounds, the marker has no blanks around it,
and paths are as they are kept.  So the text that a save writes, read back, gives the same
configuration.
-/
import Mathlib.Data.List.DropRight
import UsageReport.Proofs.Json.OneLine
import UsageReport.Proofs.Settings.Loading
import UsageReport.Proofs.Settings.Saving

namespace UsageReport

/-! ### Trimmed texts -/

namespace Text

variable {α : Type}

/-- A text that was trimmed has nothing more to trim. -/
theorem trimBy_trimBy (blank : α → Bool) (cs : List α) :
    trimBy blank (trimBy blank cs) = trimBy blank cs := by
  have htrim : trimBy blank cs = (cs.dropWhile blank).rdropWhile blank := rfl
  have hfront : (trimBy blank cs).dropWhile blank = trimBy blank cs := by
    cases hkept : trimBy blank cs with
    | nil => rfl
    | cons c rest =>
        -- What is kept begins as the text does once the blanks in front are gone.
        rw [htrim] at hkept
        obtain ⟨more, hmore⟩ := List.rdropWhile_prefix blank (cs.dropWhile blank)
        rw [hkept] at hmore
        apply List.dropWhile_cons_of_neg
        intro hblank
        have hagain := List.dropWhile_idempotent blank cs
        rw [← hmore, List.cons_append, List.dropWhile_cons_of_pos hblank] at hagain
        have hlength := List.length_dropWhile_le blank (rest ++ more)
        rw [hagain] at hlength
        simp only [List.length_cons] at hlength
        omega
  rw [trimBy, hfront, htrim]
  exact List.rdropWhile_idempotent blank _

theorem unpairedFrom_map_char (passes : Nat → Bool) (position : Nat) (cs : List Char) :
    unpairedFrom passes position (cs.map .char) = none := by
  induction cs generalizing position with
  | nil => rfl
  | cons c rest ih => exact ih (position + 1)

end Text

theorem Pairs.get?_fields (name : String) (fields : Fields) :
    get? (.text name) (fields.map fun p => (.text p.1, p.2)) = fields.lookup name := by
  induction fields with
  | nil => rfl
  | cons field rest ih =>
      rw [lookup_cons_ite, ← ih]
      by_cases hname : name = field.1
      · simp [get?, hname]
      · simp [get?, hname, Ne.symm hname]

/-! ### Paths -/

namespace PathName

/-- A path that code points spell. -/
def Sound (p : PathName) : Prop := ∃ points, ofPoints points = p

/-- Characters alone spell a text. -/
theorem ofPoints_of_characters? {points : List Text.CodePoint} {cs : List Char}
    (h : Text.characters? points = some cs) : ofPoints points = .text (String.ofList cs) := by
  have hpaired : Text.unpairedInPath? points = none := by
    rw [Text.eq_map_of_characters? h]
    exact Text.unpairedFrom_map_char _ 0 cs
  simp only [ofPoints, hpaired, h]

theorem text_sound (path : String) : (text path).Sound := by
  refine ⟨path.toList.map .char, ?_⟩
  rw [ofPoints_of_characters? (Text.characters?_map_char path.toList), String.ofList_toList]

/-- The value of a path comes back as the text that the code points spell. -/
theorem coerced_pathValue (points : List Text.CodePoint) :
    (ConfigFile.pathValue (ofPoints points)).coerced = .ofPoints points := by
  cases hcs : Text.characters? points with
  | some cs =>
      rw [ofPoints_of_characters? hcs]
      simp only [ConfigFile.pathValue, Value.coerced, Value.ofPoints, hcs]
  | none =>
      unfold ofPoints
      split
      · rfl
      · rw [hcs]
        rfl

end PathName

namespace Field

variable {v : Value}

theorem Coercions.path_ofPoints (coercions : Coercions) (points : List Text.CodePoint) :
    coercions.path (.ofPoints points) = .ok (.ofPoints points) := by
  rw [path, coercions.text_own]
  rfl

theorem Coercions.path_sound {coercions : Coercions} {p : PathName} (h : coercions.path v = .ok p) :
    p.Sound := by
  obtain ⟨points, -, hp⟩ := exists_of_map_eq_ok h
  exact ⟨points, hp⟩

theorem Coercions.path_pathValue (coercions : Coercions) {p : PathName} (h : p.Sound) :
    coercions.path (ConfigFile.pathValue p).coerced = .ok p := by
  obtain ⟨points, rfl⟩ := h
  rw [PathName.coerced_pathValue, coercions.path_ofPoints]

/-- A field holds what is read for its name among named values. -/
theorem carries_of_lookup {α : Type} {fields : Fields} {name : String} {fallback a : α}
    {read : Value → Reading α} (hlookup : fields.lookup name = some v) (hread : read v = .ok a) :
    Carries (fields.map fun p => (.text p.1, p.2)) name fallback read a := by
  rw [Carries, Pairs.get?_fields, hlookup]
  exact hread

theorem Coercions.within_int (coercions : Coercions) {least n : Int} {most : Option Int}
    (hleast : least ≤ n) (hmost : ∀ m ∈ most, n ≤ m) :
    coercions.within least most (.int n) = .ok n :=
  within_eq_ok_iff.mpr ⟨coercions.whole_own n, hleast, hmost⟩

end Field

/-! ### Settings and configurations in their final form -/

namespace Settings

variable {coercions : Field.Coercions} {given : Pairs} {v : Value} {name : Name} {s : Settings}

theorem readMarker_trimmed (h : readMarker coercions v = .ok name) :
    Text.trimBy Text.isBlankPoint name.points = name.points := by
  obtain ⟨points, -, h⟩ := exists_of_bind_eq_ok h
  dsimp only at h
  split at h
  · cases h
  split at h
  · next found hname =>
    cases h
    rw [← Name.ofPoints?_eq_some_iff.mp hname]
    exact Text.trimBy_trimBy _ _
  · cases h

theorem readMarker_value (h : Text.trimBy Text.isBlankPoint name.points = name.points) :
    readMarker coercions name.value = .ok name := by
  have hread := coercions.text_own name.points
  simp [readMarker, Name.value, hread, bind, Except.bind, h, name.points_ne_nil]

/-- Settings that validation leaves as they are. -/
structure Final (s : Settings) : Prop where
  trimmed : Text.trimBy Text.isBlankPoint s.faultMarker.points = s.faultMarker.points
  bounds : 10 ≤ s.sampleLimit ∧ s.sampleLimit ≤ 100000

theorem Fits.final (h : s.Fits coercions given) : s.Final where
  bounds := h.sampleLimit_bounds
  trimmed := by
    refine h.marker.holds
      (P := fun name => Text.trimBy Text.isBlankPoint name.points = name.points) ?_ ?_
    · decide
    · intro v hv
      exact readMarker_trimmed hv

theorem byName_toFields (s : Settings) : ConfigFile.byName s.toFields =
    [("fault_marker_key", s.faultMarker.value), ("isolate_provider_faults", .bool s.isolateFaults),
      ("max_samples_per_histogram", .int s.sampleLimit), ("record_metrics", .bool s.recordMetrics),
      ("validate_fragments", .bool s.validateFragments)] := by
  simp [ConfigFile.byName, toFields, ConfigFile.insertByName]

/-- The settings as they are written come back as they are. -/
theorem coerced_byName (s : Settings) :
    (Value.ofFields (ConfigFile.byName s.toFields)).coerced =
      .ofFields (ConfigFile.byName s.toFields) := by
  rw [byName_toFields, Value.coerced_ofFields (by simp)]
  simp [Name.value, Value.coerced_ofPoints, Value.coerced]

/-- Settings in their final form fit what is written for them. -/
theorem Final.fits (h : s.Final) :
    s.Fits coercions ((ConfigFile.byName s.toFields).map fun p => (.text p.1, p.2)) := by
  rw [byName_toFields]
  exact
    { known := by simp [fieldNames]
      isolate := Field.carries_of_lookup rfl (coercions.bool_own _)
      marker := Field.carries_of_lookup rfl (readMarker_value h.trimmed)
      validate := Field.carries_of_lookup rfl (coercions.bool_own _)
      record := Field.carries_of_lookup rfl (coercions.bool_own _)
      limit :=
        Field.carries_of_lookup rfl (coercions.within_int h.bounds.1 (by simp [h.bounds.2])) }

end Settings

namespace ConfigFile

variable {coercions : Field.Coercions} {given : Pairs} {c : ConfigFile}

/-- A configuration that validation leaves as it is. -/
structure Final (c : ConfigFile) : Prop where
  version : 1 ≤ c.version
  logDirectory : c.logDirectory.Sound
  errorsPath : c.errorsPath.Sound
  settings : c.settings.Final

theorem Fits.final (h : c.Fits coercions given) : c.Final where
  version := by
    refine h.version.holds (P := fun n => 1 ≤ n) (by decide) ?_
    intro v hv
    exact (Field.Coercions.within_eq_ok_iff.mp hv).2.1
  logDirectory :=
    h.logDirectory.holds (PathName.text_sound _) fun _ hv => Field.Coercions.path_sound hv
  errorsPath := h.errorsPath.holds (PathName.text_sound _) fun _ hv => Field.Coercions.path_sound hv
  settings := by
    rcases h.settings with ⟨-, hdefault⟩ | ⟨inner, -, hfits⟩
    · rw [hdefault]
      exact ⟨by decide, by decide⟩
    · exact hfits.final

/-- What is written for a configuration, as it comes back. -/
theorem coerced_sorted (c : ConfigFile) : c.sorted.coerced = .ofFields
    [("config_version", .int c.version), ("errors_path", (pathValue c.errorsPath).coerced),
      ("log_dir", (pathValue c.logDirectory).coerced),
      ("stats", .ofFields (byName c.settings.toFields))] := by
  have hsorted : c.sorted = .ofFields
      [("config_version", .int c.version), ("errors_path", pathValue c.errorsPath),
        ("log_dir", pathValue c.logDirectory),
        ("stats", .ofFields (byName c.settings.toFields))] := by
    simp [sorted, byName, insertByName]
  rw [hsorted, Value.coerced_ofFields (by simp)]
  simp only [List.map_cons, List.map_nil, Settings.coerced_byName, Value.coerced]

/-- A configuration in its final form fits what is written for it. -/
theorem Final.fits (h : c.Final) :
    ∃ pairs, c.sorted.coerced = .dict pairs ∧ c.Fits coercions pairs := by
  refine ⟨_, coerced_sorted c, ?_⟩
  exact
    { known := by simp [fieldNames]
      version := Field.carries_of_lookup rfl (coercions.within_int h.version (by simp))
      logDirectory := Field.carries_of_lookup rfl (coercions.path_pathValue h.logDirectory)
      errorsPath := Field.carries_of_lookup rfl (coercions.path_pathValue h.errorsPath)
      settings := Or.inr ⟨_, (Pairs.get?_fields "stats" _).trans rfl, h.settings.fits⟩ }

/-! ### Texts of configurations -/

theorem style_spaced : style.Spaced where
  plain := rfl
  separator := ⟨[' '], by simp [Json.Blank, Json.isSpace], rfl⟩
  afterName := ⟨[' '], by simp [Json.Blank, Json.isSpace], rfl⟩

theorem style_clean : style.Clean := ⟨by decide, by decide⟩

theorem floats_sorted (c : ConfigFile) : c.sorted.floats = [] := by
  have hpath (p : PathName) : (pathValue p).floats = [] := by
    cases p <;> simp [pathValue, Value.floats]
  have hname (name : Name) : name.value.floats = [] := Value.floats_ofPoints name.points
  simp [sorted, byName, insertByName, Settings.toFields, Value.floats_ofFields, hpath, hname,
    Value.floats]

theorem unifyLines_of_not_mem {cs : List Char} (h : '\r' ∉ cs) : unifyLines cs = cs := by
  induction cs with
  | nil => rfl
  | cons c rest ih =>
      rw [List.mem_cons, not_or] at h
      obtain ⟨hc, hrest⟩ := h
      rw [unifyLines, ih hrest]
      · intro _ hreturn _
        exact hc hreturn.symm
      · intro hreturn
        exact hc hreturn.symm

/-- The bytes of a configuration's text spell the configuration. -/
theorem spelledBy_text {s : String} (h : c.text = .ok s) :
    ∃ d, SpelledBy d s.toUTF8.toList ∧ d.toValue = c.sorted.coerced := by
  obtain ⟨written, hwritten, rfl⟩ := exists_of_map_eq_ok h
  have hreturn := Json.return_not_mem_text style_clean hwritten
  obtain ⟨cs, hcs, rfl⟩ := exists_of_map_eq_ok hwritten
  obtain ⟨d, hspells, hvalue⟩ := Json.exists_spells_write style_spaced c.sorted hcs
    (by simp [floats_sorted])
  refine ⟨d, ⟨_, [], cs.map .char, [.char '\n'], Text.utf8Decode_toUTF8 _, ?_, Json.blank_nil, ?_,
    hspells⟩, hvalue⟩
  · rw [unifyLines_of_not_mem]
    · simp
    · simpa using hreturn
  · simp [Json.Blank, Json.isSpace]

/-! ### The saved file -/

variable {obstacle : Option Obstacle} {t t' opened : FileTree} {words : Nat → String}
  {path s : String} {temporary target : TreePath}

/-- The path leads to a file, or it does not end in a name that is drawn for a temporary file. -/
def NoClash (t : FileTree) (words : Nat → String) (path : String) : Prop :=
  (∃ old, t.readFile path = .ok old) ∨
    ∀ n, (FileTree.parts path).getLast? ≠ some (temporaryName (words n))

theorem Saved.target_ne (h : Saved t t' words path c opened s temporary target)
    (hclash : NoClash t words path) : target ≠ temporary := by
  obtain ⟨filled, spot, hfilled, hlocate, htakes⟩ := h.leads
  rcases hclash with ⟨old, hread⟩ | hnames
  · -- The file that was there is the target, and no temporary file is made in its place.
    obtain ⟨-, place, hplace⟩ := FileTree.readFile_eq_ok_iff.mp hread
    have hkept {q : TreePath} {n : Node} (hn : t.node? q = some n) : filled.node? q = some n := by
      rw [hfilled, if_neg (h.ne_temporary hn), h.adds.keeps hn]
    have hfile := FileTree.locate_finds hplace
    obtain ⟨-, -, hleads⟩ := FileTree.locate_takes hplace (Or.inl ⟨old, rfl⟩)
    have hsame := hleads filled old (fun q => hkept) (hkept hfile)
    rw [hsame] at hlocate
    cases hlocate
    rcases htakes with ⟨content, hcontent⟩ | hvacant
    · cases hcontent
      exact h.ne_temporary hfile
    · cases hvacant
  · rintro rfl
    obtain ⟨⟨before, last, hlast, hparts⟩, -⟩ := FileTree.locate_takes hlocate htakes
    obtain ⟨directory, k, hname⟩ := h.drawn
    rw [hname] at hlast
    obtain ⟨-, hlast⟩ := List.append_inj' hlast rfl
    cases hlast
    exact hnames k hparts

/-- After a save the path leads to a file with the text of the configuration. -/
theorem Saved.locate (h : Saved t t' words path c opened s temporary target)
    (htarget : target ≠ temporary) :
    t'.locate path = .ok (.file target (.bytes s.toUTF8.toList)) := by
  obtain ⟨filled, spot, hfilled, hlocate, htakes⟩ := h.leads
  obtain ⟨-, hnode, hleads⟩ := FileTree.locate_takes hlocate htakes
  apply hleads
  · intro q hq
    have hother : q ≠ target := by
      rintro rfl
      exact hnode hq
    rw [hfilled] at hq
    split at hq
    · cases hq
    · next hq' => rw [h.node, if_neg hq', if_neg hother, hq]
  · rw [h.node, if_neg htarget, if_pos rfl]

/-- A configuration that validation made is loaded as it was saved, whatever the file held
before.  Apart from that file, and directories that were missing on the way to it, the tree is as
it was, so no temporary file is left.  Names of temporary files are drawn at random; a save whose
path is vacant and ends in the very name that is drawn for it would sweep its own file away, and is
left out. -/
theorem load_gives_what_was_saved {given : Pairs} {current r : String}
    (hvalid : ofPairs coercions given = .ok c) (hclash : NoClash t words path)
    (hsave : saveUnder obstacle t current words path c = (t', .ok r)) :
    r = path ∧ load coercions t' path = .ok c ∧
      ∃ target content, t'.locate path = .ok (.file target content) ∧
        ∀ q, q ≠ target →
          t'.node? q = t.node? q ∨ t.node? q = none ∧ t'.node? q = some .directory := by
  rcases saveUnder_cases obstacle t current words path c with
    ⟨failed, f, hfails, -⟩ | ⟨after, opened, s, temporary, target, hdone, hsaved⟩
  · cases hfails.symm.trans hsave
  cases hdone.symm.trans hsave
  have htarget := hsaved.target_ne hclash
  have hlocate := hsaved.locate htarget
  refine ⟨rfl, ?_, target, _, hlocate, ?_⟩
  · have hread := FileTree.readFile_eq_ok_iff.mpr ⟨hsaved.path_sound, target, hlocate⟩
    obtain ⟨d, hspelled, hvalue⟩ := spelledBy_text hsaved.text
    obtain ⟨pairs, hpairs, hfits⟩ := (ofPairs_eq_ok_iff.mp hvalid).final.fits
    exact (load_eq_ok_iff hread).mpr ⟨d, pairs, hspelled, hvalue.trans hpairs, hfits⟩
  · intro q hq
    rw [hsaved.node q, if_neg hq]
    by_cases htemporary : q = temporary
    · left
      rw [if_pos htemporary, htemporary]
      rcases hsaved.adds temporary with hsame | ⟨hnone, -⟩
      · rw [← hsame, hsaved.free]
      · exact hnone.symm
    · rw [if_neg htemporary]
      exact hsaved.adds q

/-- A path with line ends, a control character and quotes in it, and a marker with blanks around,
saved onto a file that holds something else. -/
theorem load_gives_what_was_saved_sample :
    let given : Pairs := [(.text "log_dir", .text "a\r\nb\x01\"é\\"),
      (.text "stats", .dict [(.text "fault_marker_key", .text " lost ")])]
    let c : ConfigFile :=
      { logDirectory := .text "a\r\nb\x01\"é\\"
        settings := { faultMarker := ⟨Text.points "lost", by decide, by decide⟩ } }
    let t : FileTree := ⟨[(["c.json"], .file (.text "old"))]⟩
    let saved := saveUnder none t "/" (fun _ => "a") "c.json" c
    ofPairs .lenient given = .ok c ∧ NoClash t (fun _ => "a") "c.json" ∧ saved.2 = .ok "c.json" ∧
      load .lenient saved.1 "c.json" = .ok c := by
  intro given c t saved
  have hvalid : ofPairs .lenient given = .ok c := eq_ok_of_toOption (by decide +kernel)
  have hclash : NoClash t (fun _ => "a") "c.json" := Or.inl ⟨.text "old", rfl⟩
  have hdone : saved.2 = .ok "c.json" := eq_ok_of_toOption (by decide +kernel)
  have hsave : saveUnder none t "/" (fun _ => "a") "c.json" c = (saved.1, .ok "c.json") :=
    Prod.ext rfl hdone
  obtain ⟨-, hload, -⟩ := load_gives_what_was_saved hvalid hclash hsave
  exact ⟨hvalid, hclash, hdone, hload⟩

end ConfigFile

end UsageReport
