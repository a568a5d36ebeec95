/-
Loading a configuration.  The bytes of a file decide what loading it comes to.  A configuration
comes only from the text of a JSON object that validation accepts, and then with exactly the
fields that the object gives.  Most else is a configuration error, but bytes that are no text and
whole numbers with too many digits end loading with failures of their own.
-/
import UsageReport.Proofs.Json.Spelling
import UsageReport.Proofs.Outcome
import UsageReport.Proofs.Settings.Fields
import UsageReport.Proofs.Text.Utf8
import UsageReport.Settings.Lenient
import UsageReport.Settings.Storage

namespace UsageReport

/-- A content is read as its bytes are. -/
theorem Content.characters_eq (c : Content) : c.characters = Text.utf8Decode c.toBytes := by
  cases c with
  | text s => exact (Text.utf8Decode_toUTF8 s).symm
  | bytes bs => rfl

theorem FileTree.readFile_eq_ok_iff {t : FileTree} {path : String} {content : Content} :
    t.readFile path = .ok content ↔
      hasNull path = false ∧ ∃ place, t.locate path = .ok (.file place content) := by
  unfold readFile
  cases hnull : hasNull path with
  | true => simp [fail]
  | false =>
      cases hlocate : t.locate path with
      | error refusal => simp [refuse, fail]
      | ok spot =>
          cases spot with
          | file place old => simp
          | directory place => simp [refuse, fail]
          | vacant place asDirectory => simp [refuse, fail]

/-- A path that leads to a file names something. -/
theorem FileTree.has_of_readFile {t : FileTree} {path : String} {content : Content}
    (h : t.readFile path = .ok content) : t.has path = true := by
  obtain ⟨hnull, place, hlocate⟩ := readFile_eq_ok_iff.mp h
  simp [has, hnull, hlocate]

/-- A fault is one of the library's configuration errors. -/
def Fault.IsConfig (f : Fault) : Prop := ∃ e cause, f = .known e cause ∧ e.kind = .config

namespace ConfigFile

variable {coercions : Field.Coercions} {t : FileTree} {path : String} {content : Content}
  {c : ConfigFile}

/-- A refusal is a configuration error, as long as the text of its cause can be made. -/
theorem refusal_isConfig (message path : String) {cause : Fault} {text : List Text.CodePoint}
    (h : cause.message = .ok text) : (refusal message path (some cause)).IsConfig := by
  simp only [refusal, h]
  exact ⟨_, _, rfl, rfl⟩

/-! ### From a document to a configuration -/

theorem ofDocument_eq_ok_iff {d : Json.Document} :
    ofDocument coercions path d = .ok c ↔
      ∃ pairs, d.toValue = .dict pairs ∧ c.Fits coercions pairs := by
  unfold ofDocument
  split
  · next pairs hpairs =>
    simp only [hpairs, Value.dict.injEq, exists_eq_left', ← ofPairs_eq_ok_iff]
    cases ofPairs coercions pairs with
    | ok made => simp
    | error problems => simp
  · next hother =>
    constructor
    · intro h
      cases h
    · rintro ⟨pairs, hpairs, -⟩
      exact absurd hpairs (hother pairs)

/-- A document that spells no configuration is a configuration error. -/
theorem isConfig_of_ofDocument {d : Json.Document} {f : Fault}
    (h : ofDocument coercions path d = .error f) : f.IsConfig := by
  unfold ofDocument at h
  split at h
  · split at h
    · cases h
    · cases h
      exact refusal_isConfig _ _ rfl
  · cases h
    exact ⟨_, _, rfl, rfl⟩

/-! ### From bytes to a document -/

/-- Reads the characters of a file as a document, after unifying their line ends. -/
def readLines (cs : List Char) : Except Json.ReadError Json.Document :=
  Json.read ((unifyLines cs).map .char)

/-- The bytes are a text that spells the document, with nothing but blanks around it. -/
def SpelledBy (d : Json.Document) (bytes : List UInt8) : Prop :=
  ∃ cs before piece after, Text.utf8Decode bytes = .ok cs ∧
    (unifyLines cs).map Text.CodePoint.char = before ++ piece ++ after ∧
    Json.Blank before ∧ Json.Blank after ∧ Json.Spells d piece

theorem spelledBy_iff {d : Json.Document} {bytes : List UInt8} :
    SpelledBy d bytes ↔ ∃ cs, Text.utf8Decode bytes = .ok cs ∧ readLines cs = .ok d := by
  simp only [SpelledBy, readLines, Json.read_eq_ok_iff]
  constructor
  · rintro ⟨cs, before, piece, after, hdecode, hparts⟩
    exact ⟨cs, hdecode, before, piece, after, hparts⟩
  · rintro ⟨cs, hdecode, before, piece, after, hparts⟩
    exact ⟨cs, before, piece, after, hdecode, hparts⟩

/-- What loading a file comes to, by its bytes. -/
theorem load_cases (coercions : Field.Coercions) (h : t.readFile path = .ok content) :
    (∃ fault, Text.utf8Decode content.toBytes = .error fault ∧
      load coercions t path = fail (.notUtf8 fault)) ∨
    ∃ cs, Text.utf8Decode content.toBytes = .ok cs ∧
      ((∃ d, readLines cs = .ok d ∧ load coercions t path = ofDocument coercions path d) ∨
      (∃ kind rest f, readLines cs = .error (.mistake kind rest) ∧
        load coercions t path = .error f ∧ f.IsConfig) ∨
      ∃ digits, readLines cs = .error (.tooLong digits) ∧
        load coercions t path = fail (.tooLongToRead digits)) := by
  unfold load
  rw [FileTree.has_of_readFile h, h]
  simp only [Content.characters_eq, Bool.not_true, Bool.false_eq_true, if_false]
  cases hdecode : Text.utf8Decode content.toBytes with
  | error fault => exact Or.inl ⟨fault, rfl, rfl⟩
  | ok cs =>
      right
      refine ⟨cs, rfl, ?_⟩
      unfold ofText
      cases hread : readLines cs with
      | ok d =>
          left
          refine ⟨d, rfl, ?_⟩
          rw [readLines] at hread
          simp only [hread]
      | error e =>
          right
          rw [readLines] at hread
          simp only [hread]
          cases e with
          | mistake kind rest => exact Or.inl ⟨kind, rest, _, rfl, rfl, refusal_isConfig _ _ rfl⟩
          | tooLong digits => exact Or.inr ⟨digits, rfl, rfl⟩

theorem load_eq_ok_iff (h : t.readFile path = .ok content) :
    load coercions t path = .ok c ↔
      ∃ d pairs, SpelledBy d content.toBytes ∧ d.toValue = .dict pairs ∧
        c.Fits coercions pairs := by
  simp only [spelledBy_iff]
  rcases load_cases coercions h with ⟨fault, hdecode, hload⟩ | ⟨cs, hdecode, hcs⟩
  · simp [hload, hdecode, fail]
  rcases hcs with ⟨d, hread, hload⟩ | ⟨kind, rest, f, hread, hload, -⟩ | ⟨digits, hread, hload⟩
  · rw [hload, ofDocument_eq_ok_iff]
    simp [hdecode, hread]
  · simp [hload, hdecode, hread]
  · simp [hload, hdecode, hread, fail]

/-- What loading a file fails with: bytes that are no text and numbers with too many digits apart,
it is a configuration error. -/
theorem isConfig_of_load (h : t.readFile path = .ok content) {f : Fault}
    (hload : load coercions t path = .error f) :
    f.IsConfig ∨ (∃ fault, Text.utf8Decode content.toBytes = .error fault) ∨
      ∃ cs digits, Text.utf8Decode content.toBytes = .ok cs ∧
        readLines cs = .error (.tooLong digits) := by
  rcases load_cases coercions h with ⟨fault, hdecode, -⟩ | ⟨cs, hdecode, hcs⟩
  · exact Or.inr (Or.inl ⟨fault, hdecode⟩)
  rcases hcs with ⟨d, -, hd⟩ | ⟨-, -, g, -, hg, hconfig⟩ | ⟨digits, hread, -⟩
  · exact Or.inl (isConfig_of_ofDocument (hd.symm.trans hload))
  · cases hg.symm.trans hload
    exact Or.inl hconfig
  · exact Or.inr (Or.inr ⟨cs, digits, hdecode, hread⟩)

/-- Loading a file gives a configuration exactly if its bytes are the text of a JSON object of
known fields that all can be read, and then each field holds what was read for it, or its default
if it is not given.  Bytes that are no UTF-8 text and whole numbers with more digits than are read
end loading with failures of their own.  Every other content is refused as a configuration
error. -/
theorem load_answers_for_content (coercions : Field.Coercions)
    (h : t.readFile path = .ok content) :
    (∀ c, load coercions t path = .ok c ↔
      ∃ d pairs, SpelledBy d content.toBytes ∧ d.toValue = .dict pairs ∧ c.Fits coercions pairs) ∧
    (∀ fault, Text.utf8Decode content.toBytes = .error fault →
      load coercions t path = fail (.notUtf8 fault)) ∧
    (∀ cs digits, Text.utf8Decode content.toBytes = .ok cs →
      readLines cs = .error (.tooLong digits) →
        load coercions t path = fail (.tooLongToRead digits)) ∧
    ∀ f, load coercions t path = .error f →
      f.IsConfig ∨ (∃ fault, Text.utf8Decode content.toBytes = .error fault) ∨
        ∃ cs digits, Text.utf8Decode content.toBytes = .ok cs ∧
          readLines cs = .error (.tooLong digits) := by
  refine ⟨fun c => load_eq_ok_iff h, ?_, ?_, fun f => isConfig_of_load h⟩
  · intro fault hfault
    rcases load_cases coercions h with ⟨found, hdecode, hload⟩ | ⟨cs, hdecode, -⟩
    · cases hdecode.symm.trans hfault
      exact hload
    · cases hdecode.symm.trans hfault
  · intro cs digits hcs hdigits
    rcases load_cases coercions h with ⟨fault, hdecode, -⟩ | ⟨found, hdecode, hfound⟩
    · cases hdecode.symm.trans hcs
    cases hdecode.symm.trans hcs
    rcases hfound with ⟨d, hread, -⟩ | ⟨kind, rest, f, hread, -⟩ |
      ⟨longer, hread, hload⟩
    · cases hread.symm.trans hdigits
    · cases hread.symm.trans hdigits
    · cases hread.symm.trans hdigits
      exact hload

/-- A file that gives a field and, within the settings, another one as a word. -/
theorem load_answers_for_content_sample :
    let given := "\x7b\"log_dir\": \"a\", \"stats\": \x7b\"validate_fragments\": \"on\"\x7d\x7d"
    let content : Content := .bytes given.toUTF8.toList
    let t : FileTree := ⟨[(["c.json"], .file content)]⟩
    let c : ConfigFile := { logDirectory := .text "a", settings := { validateFragments := true } }
    t.readFile "c.json" = .ok content ∧ load .lenient t "c.json" = .ok c ∧
      ∃ d pairs, SpelledBy d content.toBytes ∧ d.toValue = .dict pairs ∧ c.Fits .lenient pairs := by
  intro given content t c
  have hread : t.readFile "c.json" = .ok content := rfl
  have hload : load .lenient t "c.json" = .ok c := eq_ok_of_toOption (by decide +kernel)
  exact ⟨hread, hload, ((load_answers_for_content .lenient hread).1 _).mp hload⟩

/-- Loading can fail with something else than a configuration error. -/
theorem load_fails_on_bytes : ¬∀ (t : FileTree) (path : String) (content : Content),
    t.readFile path = .ok content → ∀ f, load .lenient t path = .error f → f.IsConfig := by
  intro h
  have hload : load .lenient ⟨[(["c.json"], .file (.bytes [0xff]))]⟩ "c.json" =
      fail (.notUtf8 ⟨0, 1, 0xff, .startByte⟩) := rfl
  obtain ⟨e, cause, hconfig, -⟩ := h _ "c.json" _ rfl _ hload
  cases hconfig

end ConfigFile

end UsageReport
