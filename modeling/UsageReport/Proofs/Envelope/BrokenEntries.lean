/-
Additions that fail.  One that is refused leaves the envelope as it was.  One whose parts end in a
fault does not: the name stays taken, and the opening of the entry and the parts found stay in the
text without a closing brace.  Two envelopes that differ in such a scar only behave alike under all
other names, and their texts differ in the scar only.
-/
import UsageReport.Proofs.Envelope.Runs
import UsageReport.Proofs.Outcome

namespace UsageReport

open Text (CodePoint)

/-- Pieces can be joined exactly if all of them are texts. -/
theorem joinTexts_eq_ok_iff {i : Nat} {pieces : List Value} {text : List CodePoint} :
    joinTexts i pieces = .ok text ↔
      (∀ v ∈ pieces, v.points?.isSome) ∧ text = (pieces.filterMap Value.points?).flatten := by
  induction pieces generalizing i text with
  | nil =>
      rw [joinTexts, Except.ok.injEq]
      exact ⟨fun h => ⟨by simp, h.symm⟩, fun h => h.2.symm⟩
  | cons v rest ih =>
      cases hv : v.points? with
      | none => simp [joinTexts, hv]
      | some points =>
          simp only [joinTexts, hv, List.forall_mem_cons, Option.isSome_some, true_and,
            List.filterMap_cons, List.flatten_cons]
          constructor
          · intro h
            obtain ⟨joined, hrest, rfl⟩ := exists_of_map_eq_ok h
            obtain ⟨hall, rfl⟩ := ih.mp hrest
            exact ⟨hall, rfl⟩
          · rintro ⟨hall, rfl⟩
            rw [(ih (i := i + 1)).mpr ⟨hall, rfl⟩]
            rfl

namespace Envelope

/-- The operation is an addition under a name. -/
def Operation.IsUnder (name : Name) : Operation → Prop
  | add other _ => other.points? = some name.points
  | build => False

/-- The second envelope is the first with one more name taken, and with a scar behind the front of
its pieces. -/
structure Scarred (e e' : Envelope) (name : Name) (front scar : List Value) : Prop where
  pieces : ∃ back, e.pieces = front ++ back ∧ e'.pieces = front ++ scar ++ back
  names : ∀ other, other ∈ e'.names ↔ other = name ∨ other ∈ e.names
  count : e'.count = e.count
  closed : e'.closed = e.closed

variable {e e' : Envelope} {name : Name} {front scar : List Value}

/-- An entry that is begun and never finished is a scar. -/
theorem scarred_beginEntry (e : Envelope) (name : Name) (found : List Value) :
    Scarred e (e.beginEntry name found) name e.pieces (e.lead name ++ found) where
  pieces := ⟨[], by simp [beginEntry]⟩
  names := by simp [beginEntry, or_comm]
  count := rfl
  closed := rfl

theorem Scarred.append (h : Scarred e e' name front scar) (more : List Value) :
    ∃ back, e.pieces ++ more = front ++ back ∧ e'.pieces ++ more = front ++ scar ++ back := by
  obtain ⟨back, hpieces, hpieces'⟩ := h.pieces
  refine ⟨back ++ more, ?_, ?_⟩
  · rw [hpieces, List.append_assoc]
  · rw [hpieces', List.append_assoc]

theorem Scarred.beginEntry (h : Scarred e e' name front scar) (other : Name)
    (found : List Value) :
    Scarred (e.beginEntry other found) (e'.beginEntry other found) name front scar where
  pieces := by
    have hlead : e'.lead other = e.lead other := by rw [lead, lead, h.count]
    simp only [Envelope.beginEntry, hlead, List.append_assoc e.pieces,
      List.append_assoc e'.pieces]
    exact h.append _
  names := by
    intro m
    simp only [Envelope.beginEntry, List.mem_append, h.names, or_assoc]
  count := h.count
  closed := h.closed

theorem Scarred.endEntry (h : Scarred e e' name front scar) :
    Scarred e.endEntry e'.endEntry name front scar where
  pieces := h.append _
  names := h.names
  count := congrArg (· + 1) h.count
  closed := h.closed

theorem Scarred.close (h : Scarred e e' name front scar) :
    Scarred e.close e'.close name front scar := by
  have hclosed := h.closed
  cases hopen : e.closed with
  | true =>
      rw [hopen] at hclosed
      rwa [close_of_closed hopen, close_of_closed hclosed]
  | false =>
      rw [hopen] at hclosed
      simp only [Envelope.close, hopen, hclosed, Bool.false_eq_true, if_false]
      exact ⟨h.append _, h.names, h.count, rfl⟩

/-- A scar costs no name but its own. -/
theorem Scarred.accept (h : Scarred e e' name front scar) {other : Value}
    (hother : other.points? ≠ some name.points) : e'.accept other = e.accept other := by
  unfold Envelope.accept
  rw [h.closed]
  cases hname : validateName other with
  | error f => rfl
  | ok n =>
      have hne : n ≠ name := by
        rintro rfl
        exact hother (validateName_eq_ok_iff.mp hname)
      have hmem : n ∈ e'.names ↔ n ∈ e.names := by simp [h.names, hne]
      simp only [List.contains_iff_mem, hmem]

theorem Scarred.addParts (h : Scarred e e' name front scar) {other : Value}
    (hother : other.points? ≠ some name.points) (parts : Parts) :
    Scarred (e.addParts other parts).1 (e'.addParts other parts).1 name front scar ∧
      (e'.addParts other parts).2 = (e.addParts other parts).2 := by
  have haccept := h.accept hother
  cases hgate : e.accept other with
  | error f =>
      rw [hgate] at haccept
      rw [addParts_of_refused hgate, addParts_of_refused haccept]
      exact ⟨h, rfl⟩
  | ok n =>
      rw [hgate] at haccept
      cases hfault : parts.fault with
      | none =>
          rw [addParts_of_whole hgate hfault, addParts_of_whole haccept hfault]
          exact ⟨(h.beginEntry n parts.found).endEntry, rfl⟩
      | some f =>
          rw [addParts_of_broken hgate hfault, addParts_of_broken haccept hfault]
          exact ⟨h.beginEntry n parts.found, rfl⟩

theorem Scarred.run (h : Scarred e e' name front scar) {operations : List Operation}
    (hothers : ∀ op ∈ operations, ¬ op.IsUnder name) :
    Scarred (e.run operations) (e'.run operations) name front scar := by
  induction operations generalizing e e' with
  | nil => exact h
  | cons op rest ih =>
      have hrest : ∀ other ∈ rest, ¬ other.IsUnder name := fun other hother =>
        hothers other (List.mem_cons_of_mem op hother)
      cases op with
      | build => exact ih h.close hrest
      | add other parts =>
          exact ih (h.addParts (hothers _ List.mem_cons_self) parts).1 hrest

/-- What an envelope gives when it is built is the text of its pieces, if all of them are texts. -/
theorem build_eq_ok_iff {text : List CodePoint} :
    e.build.2 = .ok text ↔ (∀ v ∈ e.close.pieces, v.points?.isSome) ∧
      text = (e.close.pieces.filterMap Value.points?).flatten := by
  rw [← joinTexts_eq_ok_iff (i := 0), Envelope.build]
  cases joinTexts 0 e.close.pieces with
  | ok points => simp
  | error failure => simp [fail]

/-- The text of a scarred envelope is that of the other with the scar put in, if that is text. -/
theorem Scarred.build (h : Scarred e e' name front scar) {text : List CodePoint}
    (hbuild : e.build.2 = .ok text) :
    (∀ v ∈ front, v.points?.isSome) ∧
      ∃ back, text = (front.filterMap Value.points?).flatten ++ back ∧
        ((∀ v ∈ scar, v.points?.isSome) → e'.build.2 =
          .ok ((front.filterMap Value.points?).flatten ++
            (scar.filterMap Value.points?).flatten ++ back)) := by
  obtain ⟨back, hpieces, hpieces'⟩ := h.close.pieces
  rw [build_eq_ok_iff, hpieces, List.forall_mem_append] at hbuild
  obtain ⟨⟨hfront, hback⟩, rfl⟩ := hbuild
  refine ⟨hfront, (back.filterMap Value.points?).flatten, by simp, fun hscar => ?_⟩
  rw [build_eq_ok_iff, hpieces', List.forall_mem_append, List.forall_mem_append]
  exact ⟨⟨⟨hfront, hscar⟩, hback⟩, by simp⟩

/-- What stands before the parts of an entry is text: a comma behind other entries, and the
opening. -/
theorem lead_text (e : Envelope) (n : Name) :
    (∀ v ∈ e.lead n, v.points?.isSome) ∧ ((e.lead n).filterMap Value.points?).flatten =
      (if e.count = 0 then [] else [.char ',']) ++ opening n := by
  have hcomma : (Value.text ",").points? = some [.char ','] := rfl
  by_cases hcount : e.count = 0 <;> simp [lead, hcount, hcomma]

/-- A scar that is no text can never be built. -/
theorem Scarred.isSome_of_build (h : Scarred e e' name front scar) {text : List CodePoint}
    (hbuild : e'.build.2 = .ok text) : ∀ v ∈ scar, v.points?.isSome := by
  obtain ⟨back, -, hpieces'⟩ := h.close.pieces
  rw [build_eq_ok_iff, hpieces'] at hbuild
  intro v hv
  exact hbuild.1 v (by simp [hv])

/-- A name is accepted only while the envelope is open, and only if it is new. -/
theorem accept_eq_ok {other : Value} {n : Name} (h : e.accept other = .ok n) :
    e.closed = false ∧ other.points? = some n.points ∧ n ∉ e.names := by
  unfold accept at h
  cases hclosed : e.closed with
  | true => simp [hclosed, fail] at h
  | false =>
      cases hname : validateName other with
      | error f => simp [hclosed, hname] at h
      | ok m =>
          by_cases hmem : m ∈ e.names
          · simp [hclosed, hname, hmem] at h
          · simp only [hclosed, hname, List.contains_iff_mem, hmem, Bool.false_eq_true, if_false]
              at h
            cases h
            exact ⟨rfl, validateName_eq_ok_iff.mp hname, hmem⟩

/-- A name that is taken stays taken. -/
theorem names_subset_run (e : Envelope) (operations : List Operation) :
    e.names ⊆ (e.run operations).names := by
  induction operations generalizing e with
  | nil => exact List.Subset.refl _
  | cons op rest ih =>
      refine List.Subset.trans ?_ (ih (e.perform op).1)
      cases op with
      | build =>
          simp only [perform, Envelope.build, Envelope.close]
          split <;> exact List.Subset.refl _
      | add other parts =>
          simp only [perform]
          cases hgate : e.accept other with
          | error f => rw [addParts_of_refused hgate]; exact List.Subset.refl _
          | ok n =>
              cases hfault : parts.fault with
              | none => rw [addParts_of_whole hgate hfault]; exact List.subset_append_left _ _
              | some f => rw [addParts_of_broken hgate hfault]; exact List.subset_append_left _ _

/-- A failed addition leaves the envelope as it was exactly if it was refused, as every addition
that fails is whose parts come to an end.  Where the parts end in a fault instead, only the size
is as before.  The name is taken from then on, though no entry has it.  Additions under other names
give what they would give without the failed one, and so does the size; but the text of a later
build, of whatever could be joined without it, has the opening of the entry and the parts found in
it, where the entries before it end, and no closing brace for them. -/
theorem failed_addition_is_undone_iff_refused {e left : Envelope} {name : Value} {parts : Parts}
    {f : Fault} (hfail : e.addParts name parts = (left, .error f)) :
    left.count = e.count ∧
      (left = e ↔ ∃ refusal, e.accept name = .error refusal) ∧
      (parts.fault = none → left = e) ∧
      ∀ n, e.accept name = .ok n →
        parts.fault = some f ∧
        (∀ after again, (left.run after).closed = false →
          (left.run after).addParts name again = (left.run after, .error (duplicateName n))) ∧
        ∀ after, (∀ op ∈ after, ¬ op.IsUnder n) →
          (left.run after).count = (e.run after).count ∧
          (∀ other again, other.points? ≠ some n.points →
            ((left.run after).addParts other again).2 = ((e.run after).addParts other again).2) ∧
          (∀ text, (left.run after).build.2 = .ok text → ∀ v ∈ parts.found, v.points?.isSome) ∧
          ∀ text, (e.run after).build.2 = .ok text → (∀ v ∈ parts.found, v.points?.isSome) →
            ∃ front back, e.build.2 = .ok (front ++ Text.points "\x7d\x7d") ∧
              text = front ++ back ∧
              (left.run after).build.2 = .ok (front ++ ((if e.count = 0 then [] else [.char ',']) ++
                opening n ++ parts.text) ++ back) := by
  cases hgate : e.accept name with
  | error refusal =>
      rw [addParts_of_refused hgate] at hfail
      cases hfail
      exact ⟨rfl, by simp, fun _ => rfl, fun n hn => by cases hn⟩
  | ok n =>
      obtain ⟨cause, hcause⟩ : ∃ cause, parts.fault = some cause := by
        cases hfault : parts.fault with
        | none =>
            rw [addParts_of_whole hgate hfault] at hfail
            cases hfail
        | some cause => exact ⟨cause, rfl⟩
      rw [addParts_of_broken hgate hcause] at hfail
      cases hfail
      have hscarred := scarred_beginEntry e n parts.found
      refine ⟨rfl, ?_, fun hwhole => ?_, fun m hm => ?_⟩
      · refine ⟨fun hsame => ?_, fun ⟨refusal, h⟩ => by cases h⟩
        have hnames := congrArg (fun e => e.names.length) hsame
        simp [beginEntry] at hnames
      · rw [hwhole] at hcause
        cases hcause
      · cases hm
        obtain ⟨hopen, hname, -⟩ := accept_eq_ok hgate
        refine ⟨hcause, fun after again hstill => ?_, fun after hothers => ?_⟩
        · have htaken : n ∈ ((e.beginEntry n parts.found).run after).names :=
            names_subset_run _ after (by simp [beginEntry])
          obtain ⟨-, hvalid⟩ := (Envelope.accept_cases _ name).2 hstill
          exact addParts_of_refused ((hvalid n hname).2.1 htaken) again
        · have hrun := hscarred.run hothers
          refine ⟨hrun.count, fun other again hother => (hrun.addParts hother again).2,
            fun text hbuild v hv => ?_, fun text hbuild hfound => ?_⟩
          · exact hrun.isSome_of_build hbuild v (List.mem_append_right _ hv)
          · obtain ⟨hfront, back, hback, hscar⟩ := hrun.build hbuild
            refine ⟨_, back, ?_, hback, ?_⟩
            · rw [build_eq_ok_iff, close, if_neg (by simp [hopen]), List.forall_mem_append]
              exact ⟨⟨hfront, by simp [Value.points?]⟩, by simp [Value.points?, Text.points]⟩
            · obtain ⟨hlead, hleadText⟩ := lead_text e n
              rw [hscar (List.forall_mem_append.mpr ⟨hlead, hfound⟩), List.filterMap_append,
                List.flatten_append, hleadText, Parts.text]

/-- The envelope of a report with one entry. -/
def oneEntry : Envelope := (blank.addParts (.text "files") (.ofTexts [])).1

/-- A value that cannot be walked through costs an envelope a name and a brace: the name cannot be
added any more, and the next entry stands inside of the one that was begun, behind a comma. -/
theorem broken_entry_stays :
    ∃ left, oneEntry.add (.text "users") .null = (left, fail (.notIterable "NoneType")) ∧
      left ≠ oneEntry ∧
      (oneEntry.add (.text "users") (.list [])).2 = .ok () ∧
      left.add (.text "users") (.list []) =
        (left, .error (duplicateName ⟨Text.points "users", by decide, by decide⟩)) ∧
      (oneEntry.add (.text "chats") (.list [])).1.build.2 = .ok (Text.points
        "\x7b\"memory_stats\":\x7b\"files\":\x7b\x7d,\"chats\":\x7b\x7d\x7d\x7d") ∧
      (left.add (.text "chats") (.list [])).1.build.2 = .ok (Text.points
        "\x7b\"memory_stats\":\x7b\"files\":\x7b\x7d,\"users\":\x7b,\"chats\":\x7b\x7d\x7d\x7d") := by
  refine ⟨_, rfl, fun hsame => ?_, rfl, rfl, congrArg Except.ok ?_, congrArg Except.ok ?_⟩
  · have hnames := congrArg (fun e => e.names.length) hsame
    simp [beginEntry] at hnames
  · decide +kernel
  · decide +kernel

/-- Parts that end in a fault after the first. -/
def halfParts : Parts := ⟨[.text "\"known\":"], some (.raised "OSError" [])⟩

theorem failed_addition_is_undone_iff_refused_midway :
    ∃ left, oneEntry.addParts (.text "users") halfParts = (left, .error (.raised "OSError" [])) ∧
      left.count = 1 ∧ left ≠ oneEntry ∧
      left.addParts (.text "users") (.ofTexts []) =
        (left, .error (duplicateName ⟨Text.points "users", by decide, by decide⟩)) ∧
      left.build.2 = .ok (Text.points
        "\x7b\"memory_stats\":\x7b\"files\":\x7b\x7d,\"users\":\x7b\"known\":\x7d\x7d") := by
  have hfail : oneEntry.addParts (.text "users") halfParts =
      (oneEntry.beginEntry ⟨Text.points "users", by decide, by decide⟩ halfParts.found,
        .error (.raised "OSError" [])) := rfl
  obtain ⟨hcount, hundone, -, hbroken⟩ := failed_addition_is_undone_iff_refused hfail
  obtain ⟨-, htaken, hscar⟩ := hbroken ⟨Text.points "users", by decide, by decide⟩ rfl
  obtain ⟨-, -, -, htext⟩ := hscar [] (by simp)
  have hbuilt : oneEntry.build.2 =
      .ok (Text.points "\x7b\"memory_stats\":\x7b\"files\":\x7b\x7d" ++
        Text.points "\x7d\x7d") := congrArg Except.ok (by decide +kernel)
  obtain ⟨front, back, hfront, hback, hleft⟩ := htext _ hbuilt (by simp [halfParts, Value.points?])
  obtain rfl : Text.points "\x7b\"memory_stats\":\x7b\"files\":\x7b\x7d" = front := by
    rw [hbuilt] at hfront
    exact List.append_cancel_right (Except.ok.inj hfront)
  obtain rfl := List.append_cancel_left hback
  refine ⟨_, hfail, hcount, fun hsame => ?_, htaken [] (.ofTexts []) rfl, hleft.trans ?_⟩
  · obtain ⟨refusal, hrefused⟩ := hundone.mp hsame
    cases hrefused
  · exact congrArg Except.ok (by decide +kernel)

end Envelope

end UsageReport
