/-
Runs over an envelope.  Between additions that succeed, operations may fail in any order; the
envelope always holds exactly the entries that were added, in order, and every time it is built it
gives the same text.  An addition of texts fails only if the envelope was built before, or the name
is invalid or taken, and then it changes nothing.
-/
import UsageReport.Envelope.Operation
import UsageReport.Proofs.Provider.Registry
import UsageReport.Proofs.Report.Envelope

namespace UsageReport

open Text (CodePoint)

namespace Envelope

/-- Texts as the parts of an entry. -/
def Parts.ofTexts (texts : List (List CodePoint)) : Parts := { found := texts.map .ofPoints }

/-- The text that the parts of an entry make up. -/
def Parts.text (parts : Parts) : List CodePoint := (parts.found.filterMap Value.points?).flatten

@[simp] theorem Parts.text_ofTexts (texts : List (List CodePoint)) :
    (Parts.ofTexts texts).text = texts.flatten := by
  simp [Parts.text, Parts.ofTexts, List.filterMap_map]

namespace Operation

/-- Whether an operation builds the report. -/
def isBuild : Operation → Bool
  | build => true
  | add _ _ => false

/-- The parts of an addition are texts. -/
def IsTextual : Operation → Prop
  | add _ parts => ∃ texts, parts = .ofTexts texts
  | build => True

/-- The entry that an addition is about, if its name is valid. -/
def entry? : Operation → Option (Name × List CodePoint)
  | add name parts =>
    (validateName name).toOption.map fun n => (n, parts.text)
  | build => none

end Operation

/-- Whether an answer tells that an entry was added. -/
def Answer.isAddition : Answer → Bool
  | .added (.ok ()) => true
  | _ => false

/-- The entries that operations add to an envelope: those of the additions that succeed, in
order. -/
def additions (e : Envelope) : List Operation → List (Name × List CodePoint)
  | [] => []
  | op :: rest =>
    (if (e.perform op).2.isAddition then op.entry?.toList else []) ++
      (e.perform op).1.additions rest

variable {e : Envelope} {root : Name} {entries : List (Name × List CodePoint)}

theorem additions_cons (e : Envelope) (op : Operation) (rest : List Operation) :
    e.additions (op :: rest) = e.additions [op] ++ (e.perform op).1.additions rest := by
  simp [additions]

/-! ### One operation -/

/-- An addition that is not accepted changes nothing. -/
theorem addParts_of_refused {name : Value} {f : Fault} (h : e.accept name = .error f)
    (parts : Parts) : e.addParts name parts = (e, .error f) := by
  rw [addParts, h]

/-- An addition that is accepted adds the entry if the parts come to an end. -/
theorem addParts_of_whole {name : Value} {n : Name} (h : e.accept name = .ok n) {parts : Parts}
    (hwhole : parts.fault = none) :
    e.addParts name parts = ((e.beginEntry n parts.found).endEntry, .ok ()) := by
  simp only [addParts, h, hwhole]

/-- An addition that is accepted only begins the entry if a fault ends the walk through the
parts. -/
theorem addParts_of_broken {name : Value} {n : Name} (h : e.accept name = .ok n) {parts : Parts}
    {f : Fault} (hbroken : parts.fault = some f) :
    e.addParts name parts = (e.beginEntry n parts.found, .error f) := by
  simp only [addParts, h, hbroken]

/-- The gate of every addition: the envelope must be open, and the name valid and new.  The refusal
of what is no name tells the value, which fails for a value that has no text. -/
theorem accept_cases (e : Envelope) (name : Value) :
    (e.closed = true → e.accept name = fail .envelopeBuilt) ∧
      (e.closed = false →
        ((∀ n : Name, name.points? ≠ some n.points) →
          name.hasText = true ∧ (∃ shown, e.accept name = .error (invalidName shown)) ∨
            name.hasText = false ∧ e.accept name = fail .tooLongToWrite) ∧
        ∀ n : Name, name.points? = some n.points →
          validateName name = .ok n ∧
          (n ∈ e.names → e.accept name = .error (duplicateName n)) ∧
          (n ∉ e.names → e.accept name = .ok n)) := by
  refine ⟨fun hclosed => by rw [accept, if_pos hclosed], fun hopen => ?_⟩
  have hrefused {f : Fault} (hname : validateName name = .error f) : e.accept name = .error f := by
    simp only [accept, hopen, hname, Bool.false_eq_true, if_false]
  rcases validateName_cases name with ⟨hnone, hname⟩ | ⟨n, hpoints, hname⟩
  · refine ⟨fun _ => ?_, fun n hn => absurd hn (hnone n)⟩
    rcases hname with ⟨htext, shown, hname⟩ | ⟨hlong, hname⟩
    · exact .inl ⟨htext, shown, hrefused hname⟩
    · exact .inr ⟨hlong, hrefused hname⟩
  · refine ⟨fun hnone => absurd hpoints (hnone n), fun m hm => ?_⟩
    obtain rfl : n = m := Name.points_injective (Option.some.inj (hpoints.symm.trans hm))
    refine ⟨hname, fun htaken => ?_, fun hnew => ?_⟩
    · simp only [accept, hopen, hname, List.contains_iff_mem, htaken, Bool.false_eq_true, if_false,
        if_true]
    · simp only [accept, hopen, hname, List.contains_iff_mem, hnew, Bool.false_eq_true, if_false]

/-- Building an envelope that was built before leaves it as it is. -/
theorem close_of_closed (h : e.closed = true) : e.close = e := by
  rw [close, if_pos h]

theorem perform_closed (e : Envelope) (op : Operation) :
    (e.perform op).1.closed = (e.closed || op.isBuild) := by
  cases op with
  | build => simp [perform, build, Operation.isBuild, close_closed]
  | add name parts =>
      simp only [perform, Operation.isBuild, Bool.or_false]
      cases haccept : e.accept name with
      | error f => rw [addParts_of_refused haccept]
      | ok n =>
          cases hfault : parts.fault with
          | none => rw [addParts_of_whole haccept hfault]; rfl
          | some f => rw [addParts_of_broken haccept hfault]; rfl

/-- An operation adds its entry behind the others, or leaves the entries as they are. -/
theorem Stands.perform (h : e.Stands root entries) {op : Operation} (htext : op.IsTextual) :
    (e.perform op).1.Stands root (entries ++ e.additions [op]) := by
  cases op with
  | build =>
      have hnone : e.additions [.build] = [] := rfl
      rw [hnone, List.append_nil]
      exact h.close
  | add name parts =>
      obtain ⟨texts, rfl⟩ := htext
      obtain ⟨hbuilt, hunbuilt⟩ := e.accept_cases name
      have hrefused {f : Fault} (hf : e.accept name = .error f) :
          (e.perform (.add name (.ofTexts texts))).1.Stands root
            (entries ++ e.additions [.add name (.ofTexts texts)]) := by
        have hadd := addParts_of_refused hf (.ofTexts texts)
        simpa [Envelope.perform, additions, hadd, Answer.isAddition] using h
      cases hclosed : e.closed with
      | true => exact hrefused (hbuilt hclosed)
      | false =>
          obtain ⟨hinvalid, hvalid⟩ := hunbuilt hclosed
          rcases validateName_cases name with ⟨hnone, -⟩ | ⟨n, hpoints, -⟩
          · rcases hinvalid hnone with ⟨-, shown, hf⟩ | ⟨-, hf⟩
            · exact hrefused hf
            · exact hrefused hf
          · obtain ⟨hname, htaken, hnew⟩ := hvalid n hpoints
            by_cases hmem : n ∈ e.names
            · exact hrefused (htaken hmem)
            · have hwhole : (Parts.ofTexts texts).fault = none := rfl
              have hadd := addParts_of_whole (hnew hmem) hwhole
              have hentry : e.additions [.add name (.ofTexts texts)] = [(n, texts.flatten)] := by
                simp [additions, Envelope.perform, hadd, Answer.isAddition, Operation.entry?, hname,
                  Except.toOption]
              rw [hentry, Envelope.perform, hadd]
              exact h.endEntry hclosed n texts

/-! ### Any sequence of operations -/

theorem run_closed (e : Envelope) (operations : List Operation) :
    (e.run operations).closed = (e.closed || operations.any Operation.isBuild) := by
  induction operations generalizing e with
  | nil => simp [run]
  | cons op rest ih =>
      have hrest := ih (e.perform op).1
      rw [perform_closed, Bool.or_assoc] at hrest
      exact hrest

/-- After any operations, the envelope holds what was added before and by them. -/
theorem Stands.run (h : e.Stands root entries) {operations : List Operation}
    (htexts : ∀ op ∈ operations, op.IsTextual) :
    (e.run operations).Stands root (entries ++ e.additions operations) := by
  induction operations generalizing e entries with
  | nil =>
      rw [additions, List.append_nil]
      exact h
  | cons op rest ih =>
      have hfirst := h.perform (htexts op List.mem_cons_self)
      have hrest := ih hfirst fun other hother => htexts other (List.mem_cons_of_mem op hother)
      rw [List.append_assoc, ← additions_cons] at hrest
      exact hrest

/-- Nothing changes an envelope that was built. -/
theorem run_of_closed (h : e.closed = true) (operations : List Operation) :
    e.run operations = e := by
  induction operations generalizing e with
  | nil => rfl
  | cons op rest ih =>
      have hop : (e.perform op).1 = e := by
        cases op with
        | build => exact close_of_closed h
        | add name parts =>
            rw [perform, addParts_of_refused ((e.accept_cases name).1 h)]
      change (e.perform op).1.run rest = e
      rw [hop, ih h]

/-- An envelope can be made under every valid name.  After any additions of texts and builds, its
size is the number of additions that succeeded, and every build, now and after whatever else is
tried, gives one and the same text: that of the entries added, in order, with commas between them.
An addition is refused if the report was built before, or else if the name is invalid, or else if
an entry of that name was added, and then changes nothing; any other addition succeeds.  The refusal
of an invalid name tells the name; where that is no text and cannot be told, the failure to tell it
stands in for the refusal. -/
theorem every_build_tells_the_additions {name : Value} {new : Envelope}
    (hnew : Envelope.new name = .ok new) (operations : List Operation)
    (htexts : ∀ op ∈ operations, op.IsTextual) :
    ∃ root : Name, name.points? = some root.points ∧
      let e := new.run operations
      let entries := new.additions operations
      e.count = entries.length ∧
      e.build.2 = .ok (.char '\x7b' :: .char '"' :: root.points ++ Text.points "\":\x7b" ++
        [.char ','].intercalate (entries.map fun entry =>
          .char '"' :: entry.1.points ++ Text.points "\":\x7b" ++ entry.2 ++ Text.points "\x7d") ++
        Text.points "\x7d\x7d") ∧
      (∀ more, (e.build.1.run more).build.2 = e.build.2) ∧
      ∀ (name : Value) (texts : List (List CodePoint)),
        let tried := e.add name (.list (texts.map .ofPoints))
        (operations.any Operation.isBuild = true → tried = (e, fail .envelopeBuilt)) ∧
        (operations.any Operation.isBuild = false →
          ((∀ n : Name, name.points? ≠ some n.points) →
            name.hasText = true ∧ (∃ shown, tried = (e, .error (invalidName shown))) ∨
              name.hasText = false ∧ tried = (e, fail .tooLongToWrite)) ∧
          ∀ n : Name, name.points? = some n.points →
            (n ∈ entries.map (·.1) → tried = (e, .error (duplicateName n))) ∧
            (n ∉ entries.map (·.1) → tried.2 = .ok ())) := by
  obtain ⟨root, hroot, hstart, hopen⟩ := stands_of_new hnew
  have hpoints : name.points? = some root.points := by
    rwa [← validateName_eq_ok_iff]
  have hstands := hstart.run htexts
  have hclosed := new.run_closed operations
  rw [List.nil_append] at hstands
  rw [hopen, Bool.false_or] at hclosed
  refine ⟨root, hpoints, hstands.count, ?_, fun more => ?_, fun name texts => ?_⟩
  · rw [hstands.build]
    rfl
  · have hkept := run_of_closed (new.run operations).close_closed more
    rw [hstands.build, hkept, hstands.close.build]
  · have hparts : (new.run operations).add name (.list (texts.map .ofPoints)) =
        (new.run operations).addParts name (.ofTexts texts) := rfl
    obtain ⟨hbuilt, hunbuilt⟩ := (new.run operations).accept_cases name
    rw [hclosed] at hbuilt hunbuilt
    rw [hstands.names] at hunbuilt
    simp only [hparts]
    refine ⟨fun h => addParts_of_refused (hbuilt h) _, fun h => ?_⟩
    obtain ⟨hinvalid, hvalid⟩ := hunbuilt h
    refine ⟨fun hnone => ?_, fun n hn => ?_⟩
    · rcases hinvalid hnone with ⟨htext, shown, hf⟩ | ⟨hlong, hf⟩
      · exact .inl ⟨htext, shown, addParts_of_refused hf _⟩
      · exact .inr ⟨hlong, addParts_of_refused hf _⟩
    · obtain ⟨-, htaken, hfree⟩ := hvalid n hn
      refine ⟨fun hmem => addParts_of_refused (htaken hmem) _, fun hmem => ?_⟩
      rw [addParts_of_whole (hfree hmem) rfl]

/-- A number with too many digits is no name, and an addition under it is not refused as one:
telling the number fails first. -/
theorem untold_name_is_not_refused :
    (∀ n : Name, Value.tooLong.points? ≠ some n.points) ∧
      blank.add .tooLong (.list []) = (blank, fail .tooLongToWrite) ∧
      ∀ shown, (blank.add .tooLong (.list [])).2 ≠ .error (invalidName shown) := by
  have hnone : Value.tooLong.points? = none := points?_of_not_hasText Value.hasText_tooLong
  have haccept : blank.accept .tooLong = fail .tooLongToWrite := by
    rw [accept, validateName_untold Value.hasText_tooLong]
    rfl
  have hadd : blank.add .tooLong (.list []) = (blank, fail .tooLongToWrite) :=
    addParts_of_refused haccept _
  refine ⟨fun n => by simp [hnone], hadd, fun shown h => ?_⟩
  rw [hadd] at h
  cases h

/-- Additions of which the second comes twice, the third has no valid name, and the last comes too
late. -/
def untidy : List Operation := [
  .add (.text "files") (.ofTexts [Text.points "\"open\":", Text.points "2"]),
  .add (.text "files") (.ofTexts [Text.points "\"open\":3"]),
  .add (.text "chats\"") (.ofTexts []),
  .add (.text "users") (.ofTexts []),
  .build,
  .add (.text "stars") (.ofTexts [])]

theorem every_build_tells_the_additions_untidy :
    Envelope.new rootName.value = .ok blank ∧ (∀ op ∈ untidy, op.IsTextual) ∧
      (blank.run untidy).count = 2 ∧
      (blank.run untidy).build.2 = .ok (Text.points
        "\x7b\"memory_stats\":\x7b\"files\":\x7b\"open\":2\x7d,\"users\":\x7b\x7d\x7d\x7d") ∧
      (blank.run untidy).add (.text "stars") (.list []) =
        (blank.run untidy, fail .envelopeBuilt) := by
  have htexts : ∀ op ∈ untidy, op.IsTextual := by
    intro op hop
    simp only [untidy, List.mem_cons, List.not_mem_nil, or_false] at hop
    rcases hop with rfl | rfl | rfl | rfl | rfl | rfl
    all_goals first | exact ⟨_, rfl⟩ | exact trivial
  have hadded : blank.additions untidy =
      [(⟨Text.points "files", by decide, by decide⟩, Text.points "\"open\":2"),
        (⟨Text.points "users", by decide, by decide⟩, [])] := by
    decide +kernel
  obtain ⟨root, hroot, hcount, htext, -, hadd⟩ :=
    every_build_tells_the_additions new_rootName untidy htexts
  obtain rfl : rootName = root := by
    rw [Name.value, Value.points?_ofPoints] at hroot
    exact Name.points_injective (Option.some.inj hroot)
  refine ⟨new_rootName, htexts, ?_, ?_, (hadd (.text "stars") []).1 rfl⟩
  · rw [hcount, hadded]
    rfl
  · rw [htext, hadded]
    exact congrArg Except.ok (by decide +kernel)

end Envelope

end UsageReport
