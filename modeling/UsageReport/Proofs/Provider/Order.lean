/-
The report order as a list of names.  Every name given stands in it once, and no other does.  The
order in which names are given matters for those only that have no place of their own.
-/
import Mathlib.Data.List.Induction
import Mathlib.Data.List.Nodup
import UsageReport.Proofs.Outcome
import UsageReport.Provider.Order
import UsageReport.Value.Display

namespace UsageReport

open Text (CodePoint)

variable {names : List (List CodePoint)}

theorem canonicalTexts_nodup : canonicalTexts.Nodup := by
  have hnames : canonicalOrder.Nodup := by decide +kernel
  exact hnames.map Text.points_injective

/-- A text is that of a name with a place of its own exactly if it is such a name. -/
theorem points_mem_canonicalTexts {name : String} :
    Text.points name ∈ canonicalTexts ↔ name ∈ canonicalOrder :=
  List.mem_map_of_injective Text.points_injective

/-- Going through names keeps the places of those seen before, and adds each new one once. -/
theorem foldl_firstPlaces (seen : List (List CodePoint)) (hseen : seen.Nodup)
    (names : List (List CodePoint)) :
    let places := names.foldl (fun seen n => if seen.contains n then seen else seen ++ [n]) seen
    places.Nodup ∧ ∀ n, n ∈ places ↔ n ∈ seen ∨ n ∈ names := by
  induction names generalizing seen with
  | nil => simp [hseen]
  | cons first rest ih =>
      rw [List.foldl_cons]
      by_cases hfirst : first ∈ seen
      · rw [if_pos (List.contains_iff_mem.mpr hfirst)]
        obtain ⟨hnodup, hmem⟩ := ih seen hseen
        refine ⟨hnodup, fun n => ?_⟩
        rw [hmem, List.mem_cons]
        constructor
        · rintro (hold | hrest)
          · exact .inl hold
          · exact .inr (.inr hrest)
        · rintro (hold | rfl | hrest)
          · exact .inl hold
          · exact .inl hfirst
          · exact .inr hrest
      · have hnew : (seen ++ [first]).Nodup := by
          rw [List.nodup_append]
          refine ⟨hseen, List.nodup_singleton first, fun old hold new hnew => ?_⟩
          rw [List.mem_singleton.mp hnew]
          exact fun heq => hfirst (heq ▸ hold)
        rw [if_neg fun h => hfirst (List.contains_iff_mem.mp h)]
        obtain ⟨hnodup, hmem⟩ := ih (seen ++ [first]) hnew
        refine ⟨hnodup, fun n => ?_⟩
        rw [hmem, List.mem_append, List.mem_singleton, List.mem_cons, or_assoc]

theorem firstPlaces_nodup (names : List (List CodePoint)) : (firstPlaces names).Nodup :=
  (foldl_firstPlaces [] List.nodup_nil names).1

theorem mem_firstPlaces {n : List CodePoint} : n ∈ firstPlaces names ↔ n ∈ names := by
  rw [firstPlaces, (foldl_firstPlaces [] List.nodup_nil names).2]
  simp

/-- Going through new names of which none stands twice keeps them all in their places. -/
theorem foldl_firstPlaces_of_nodup (seen : List (List CodePoint)) (h : (seen ++ names).Nodup) :
    names.foldl (fun seen n => if seen.contains n then seen else seen ++ [n]) seen =
      seen ++ names := by
  induction names generalizing seen with
  | nil => simp
  | cons first rest ih =>
      have hnew : ¬seen.contains first = true := by
        intro hseen
        exact List.disjoint_of_nodup_append h (List.contains_iff_mem.mp hseen) List.mem_cons_self
      rw [List.foldl_cons, if_neg hnew, ih _ (by simpa using h)]
      simp

theorem firstPlaces_of_nodup (h : names.Nodup) : firstPlaces names = names :=
  foldl_firstPlaces_of_nodup [] h

theorem mem_orderNames {n : List CodePoint} : n ∈ orderNames names ↔ n ∈ names := by
  simp only [orderNames, List.mem_append, List.mem_filter, mem_firstPlaces,
    Bool.not_eq_true', List.contains_eq_mem, decide_eq_false_iff_not]
  by_cases hn : n ∈ canonicalTexts
  · simp [hn]
  · simp [hn]

/-- No name stands twice in the report order, however often it was given. -/
theorem orderNames_nodup (names : List (List CodePoint)) : (orderNames names).Nodup := by
  rw [orderNames, List.nodup_append]
  refine ⟨canonicalTexts_nodup.filter _, (firstPlaces_nodup names).filter _, ?_⟩
  intro known hknown extra hextra heq
  have hcanonical := List.mem_of_mem_filter hknown
  have hnot := (List.mem_filter.mp hextra).2
  rw [← heq] at hnot
  simp [hcanonical] at hnot

/-- Names in two orders have one report order, as long as those without a place of their own stand
in the same order. -/
theorem orderNames_eq_of_perm {names' : List (List CodePoint)} (h : names.Nodup)
    (hperm : names.Perm names')
    (hothers : names.filter (fun n => !canonicalTexts.contains n) =
      names'.filter fun n => !canonicalTexts.contains n) :
    orderNames names = orderNames names' := by
  have hknown : canonicalTexts.filter names.contains = canonicalTexts.filter names'.contains := by
    apply List.filter_congr
    intro n _
    rw [Bool.eq_iff_iff, List.contains_iff_mem, List.contains_iff_mem]
    exact hperm.mem_iff
  simp only [orderNames, firstPlaces_of_nodup h, firstPlaces_of_nodup (hperm.nodup_iff.mp h),
    hknown, hothers]

/-- One more name goes last, unless it was seen before. -/
theorem firstPlaces_concat (names : List (List CodePoint)) (n : List CodePoint) :
    firstPlaces (names ++ [n]) =
      if n ∈ names then firstPlaces names else firstPlaces names ++ [n] := by
  have hlast : firstPlaces (names ++ [n]) =
      if (firstPlaces names).contains n then firstPlaces names else firstPlaces names ++ [n] := by
    rw [firstPlaces, List.foldl_append]
    rfl
  rw [hlast]
  simp only [List.contains_iff_mem, mem_firstPlaces]

/-- Names without repeats stand in the order in which they first occur. -/
theorem firstPlaces_pairwise (names : List (List CodePoint)) :
    (firstPlaces names).Pairwise fun a b => names.idxOf a < names.idxOf b := by
  induction names using List.reverseRecOn with
  | nil => exact List.Pairwise.nil
  | append_singleton names n ih =>
      have hold : (firstPlaces names).Pairwise fun a b =>
          (names ++ [n]).idxOf a < (names ++ [n]).idxOf b := by
        refine ih.imp_of_mem fun {a b} ha hb hlt => ?_
        rwa [List.idxOf_append_of_mem (mem_firstPlaces.mp ha),
          List.idxOf_append_of_mem (mem_firstPlaces.mp hb)]
      rw [firstPlaces_concat]
      split
      · exact hold
      · next hnew =>
        refine List.pairwise_append.mpr ⟨hold, List.pairwise_singleton _ n, fun a ha b hb => ?_⟩
        have hseen : a ∈ names := mem_firstPlaces.mp ha
        rw [List.mem_singleton.mp hb, List.idxOf_append_of_mem hseen,
          List.idxOf_append_of_notMem hnew]
        exact Nat.lt_add_right _ (List.idxOf_lt_length_of_mem hseen)

/-- In a list without repeats every member stands at its own place. -/
theorem pairwise_idxOf_of_nodup (h : names.Nodup) :
    names.Pairwise fun a b => names.idxOf a < names.idxOf b := by
  have hplaces := firstPlaces_pairwise names
  rwa [firstPlaces_of_nodup h] at hplaces

/-- Two lists of the same names that follow the same places are equal. -/
theorem eq_of_pairwise_idxOf {places first second : List (List CodePoint)}
    (hfirst : first.Nodup) (hsecond : second.Nodup) (hmem : ∀ n, n ∈ first ↔ n ∈ second)
    (hplaces : first.Pairwise fun a b => places.idxOf a < places.idxOf b)
    (hplaces' : second.Pairwise fun a b => places.idxOf a < places.idxOf b) : first = second := by
  have hperm := (List.perm_ext_iff_of_nodup hfirst hsecond).mpr hmem
  exact hperm.eq_of_pairwise (fun a b _ _ hab hba => absurd hab (Nat.lt_asymm hba)) hplaces hplaces'

/-- What the report order of names is: each of them once and no other, first those with a place of
their own by their places, then all others as they first occur. -/
structure InReportOrder (names order : List (List CodePoint)) : Prop where
  nodup : order.Nodup
  mem_iff : ∀ n, n ∈ order ↔ n ∈ names
  parts : ∃ known extra, order = known ++ extra ∧
    (∀ n ∈ known, n ∈ canonicalTexts) ∧
    (known.Pairwise fun a b => canonicalTexts.idxOf a < canonicalTexts.idxOf b) ∧
    (∀ n ∈ extra, n ∉ canonicalTexts) ∧
    extra.Pairwise fun a b => names.idxOf a < names.idxOf b

theorem orderNames_inReportOrder (names : List (List CodePoint)) :
    InReportOrder names (orderNames names) where
  nodup := orderNames_nodup names
  mem_iff _ := mem_orderNames
  parts := by
    refine ⟨_, _, rfl, fun n hn => List.mem_of_mem_filter hn, ?_, ?_, ?_⟩
    · exact (pairwise_idxOf_of_nodup canonicalTexts_nodup).filter _
    · intro n hn
      simpa using (List.mem_filter.mp hn).2
    · exact (firstPlaces_pairwise names).filter _

namespace InReportOrder

variable {names' order order' known extra : List (List CodePoint)}

/-- Which names the two parts of an order hold. -/
theorem mem_parts (h : InReportOrder names (known ++ extra))
    (hknown : ∀ n ∈ known, n ∈ canonicalTexts) (hextra : ∀ n ∈ extra, n ∉ canonicalTexts)
    (n : List CodePoint) :
    (n ∈ known ↔ n ∈ names ∧ n ∈ canonicalTexts) ∧
      (n ∈ extra ↔ n ∈ names ∧ n ∉ canonicalTexts) := by
  have hmem := h.mem_iff n
  rw [List.mem_append] at hmem
  refine ⟨⟨fun hn => ⟨hmem.mp (.inl hn), hknown n hn⟩, fun ⟨hgiven, hplace⟩ => ?_⟩,
    ⟨fun hn => ⟨hmem.mp (.inr hn), hextra n hn⟩, fun ⟨hgiven, hplace⟩ => ?_⟩⟩
  · exact (hmem.mpr hgiven).resolve_right fun hn => hextra n hn hplace
  · exact (hmem.mpr hgiven).resolve_left fun hn => hplace (hknown n hn)

/-- The names with places of their own are in one order, however the names were given. -/
theorem filter_known_eq (h : InReportOrder names order) (h' : InReportOrder names' order')
    (hsame : ∀ n, n ∈ names ↔ n ∈ names') :
    order.filter (fun n => canonicalTexts.contains n) =
      order'.filter (fun n => canonicalTexts.contains n) := by
  have hplaces {given order : List (List CodePoint)} (h : InReportOrder given order) :
      (order.filter fun n => canonicalTexts.contains n).Pairwise fun a b =>
        canonicalTexts.idxOf a < canonicalTexts.idxOf b := by
    obtain ⟨known, extra, rfl, hknown, hplaces, hextra, -⟩ := h.parts
    rwa [List.filter_append, List.filter_eq_self.mpr (by simpa using hknown),
      List.filter_eq_nil_iff.mpr (by simpa using hextra), List.append_nil]
  refine eq_of_pairwise_idxOf (h.nodup.filter _) (h'.nodup.filter _) (fun n => ?_) (hplaces h)
    (hplaces h')
  rw [List.mem_filter, List.mem_filter, h.mem_iff, h'.mem_iff, hsame]

/-- Names have one report order only. -/
theorem unique (h : InReportOrder names order) (h' : InReportOrder names order') :
    order = order' := by
  obtain ⟨known, extra, rfl, hknown, hplaces, hextra, hoccur⟩ := h.parts
  obtain ⟨known', extra', rfl, hknown', hplaces', hextra', hoccur'⟩ := h'.parts
  obtain ⟨hnodup, hnodupExtra, -⟩ := List.nodup_append.mp h.nodup
  obtain ⟨hnodup', hnodupExtra', -⟩ := List.nodup_append.mp h'.nodup
  have hmem := h.mem_parts hknown hextra
  have hmem' := h'.mem_parts hknown' hextra'
  congr 1
  · exact eq_of_pairwise_idxOf hnodup hnodup'
      (fun n => (hmem n).1.trans (hmem' n).1.symm) hplaces hplaces'
  · exact eq_of_pairwise_idxOf hnodupExtra hnodupExtra'
      (fun n => (hmem n).2.trans (hmem' n).2.symm) hoccur hoccur'

/-- An order is its own report order. -/
theorem again (h : InReportOrder names order) : InReportOrder order order := by
  obtain ⟨known, extra, rfl, hknown, hplaces, hextra, -⟩ := h.parts
  refine ⟨h.nodup, fun _ => Iff.rfl, known, extra, rfl, hknown, hplaces, hextra, ?_⟩
  exact (pairwise_idxOf_of_nodup h.nodup).sublist (List.sublist_append_right known extra)

/-- Names that are given once more change nothing. -/
theorem append (h : InReportOrder names order) {more : List (List CodePoint)}
    (hmore : ∀ n ∈ more, n ∈ names) : InReportOrder (names ++ more) order := by
  obtain ⟨known, extra, rfl, hknown, hplaces, hextra, hoccur⟩ := h.parts
  refine ⟨h.nodup, fun n => ?_, known, extra, rfl, hknown, hplaces, hextra, ?_⟩
  · rw [h.mem_iff, List.mem_append]
    exact ⟨.inl, fun hn => hn.elim id (hmore n)⟩
  · refine hoccur.imp_of_mem fun {a b} ha hb hlt => ?_
    rwa [List.idxOf_append_of_mem ((h.mem_iff a).mp (List.mem_append_right known ha)),
      List.idxOf_append_of_mem ((h.mem_iff b).mp (List.mem_append_right known hb))]

end InReportOrder

/-! ### Names given as values -/

theorem mapM_written_eq_ok_iff {given : List Value} {texts : List (List CodePoint)} :
    given.mapM Value.written = .ok texts ↔
      (∀ v ∈ given, v.hasText = true) ∧ texts = given.map Value.plain := by
  have hall : given.mapM Value.written = .ok (given.map Value.plain) ↔
      ∀ v ∈ given, v.hasText = true := by
    rw [mapM_eq_ok_map_iff]
    exact forall₂_congr fun v _ => by simp [Value.written_eq_ok_iff]
  constructor
  · intro h
    have htexts : ∀ v ∈ given, v.hasText = true := by
      intro v hv
      obtain ⟨text, htext⟩ := exists_of_mapM_eq_ok h hv
      exact (Value.written_eq_ok_iff.mp htext).1
    exact ⟨htexts, Except.ok.inj (h.symm.trans (hall.mpr htexts))⟩
  · rintro ⟨htexts, rfl⟩
    exact hall.mpr htexts

theorem orderValues_eq_ok_iff {given : List Value} {order : List (List CodePoint)} :
    orderValues given = .ok order ↔
      (∀ v ∈ given, v.hasText = true) ∧ order = orderNames (given.map Value.plain) := by
  constructor
  · intro h
    obtain ⟨texts, hgiven, rfl⟩ := exists_of_map_eq_ok h
    obtain ⟨htexts, rfl⟩ := mapM_written_eq_ok_iff.mp hgiven
    exact ⟨htexts, rfl⟩
  · rintro ⟨htexts, rfl⟩
    rw [orderValues, mapM_written_eq_ok_iff.mpr ⟨htexts, rfl⟩]
    rfl

/-- Values are not ordered exactly if one of them has no text. -/
theorem orderValues_eq_error_iff {given : List Value} {failure : Failure} :
    orderValues given = .error failure ↔
      (∃ v ∈ given, v.hasText = false) ∧ failure = .tooLongToWrite := by
  constructor
  · intro h
    obtain ⟨v, hv, hwritten⟩ := exists_of_mapM_eq_error (eq_error_of_map_eq_error h)
    obtain ⟨hlong, hfailure⟩ := Value.written_eq_error_iff.mp hwritten
    exact ⟨⟨v, hv, hlong⟩, hfailure⟩
  · rintro ⟨⟨v, hv, hlong⟩, rfl⟩
    cases hordered : orderValues given with
    | ok order =>
        rw [(orderValues_eq_ok_iff.mp hordered).1 v hv] at hlong
        cases hlong
    | error failure =>
        obtain ⟨w, -, hwritten⟩ := exists_of_mapM_eq_error (eq_error_of_map_eq_error hordered)
        rw [(Value.written_eq_error_iff.mp hwritten).2]

/-- The report order of names given as values, in whatever number and order.  There is one exactly
if all of them have texts, and then the texts stand in it once each and nothing else does, first
those with a place of their own by their places, then all others as they first occur, and no other
list is like that.  So ordering again changes nothing, the names with a place of their own depend on
which names are given only, and a name that is given once more changes nothing. -/
theorem names_have_one_report_order (given : List Value) :
    (∀ order, orderValues given = .ok order ↔ (∀ v ∈ given, v.hasText = true) ∧
      InReportOrder (given.map Value.plain) order) ∧
    (∀ failure, orderValues given = .error failure ↔
      (∃ v ∈ given, v.hasText = false) ∧ failure = .tooLongToWrite) ∧
    ∀ order, orderValues given = .ok order →
      orderValues (order.map Value.ofPoints) = .ok order ∧
      (∀ (other : List Value) order', orderValues other = .ok order' →
        (∀ n, n ∈ other.map Value.plain ↔ n ∈ given.map Value.plain) →
          order'.filter (fun n => canonicalTexts.contains n) =
            order.filter fun n => canonicalTexts.contains n) ∧
      ∀ more : List Value, (∀ v ∈ more, v.hasText = true ∧ v.plain ∈ given.map Value.plain) →
        orderValues (given ++ more) = .ok order := by
  have horder := orderNames_inReportOrder (given.map Value.plain)
  refine ⟨fun order => ?_, fun failure => orderValues_eq_error_iff, fun order hordered => ?_⟩
  · rw [orderValues_eq_ok_iff]
    refine and_congr_right fun _ => ⟨?_, fun h => h.unique horder⟩
    rintro rfl
    exact horder
  obtain ⟨htexts, rfl⟩ := orderValues_eq_ok_iff.mp hordered
  refine ⟨?_, fun other order' hother hsame => ?_, fun more hmore => ?_⟩
  · refine orderValues_eq_ok_iff.mpr ⟨List.forall_mem_map.mpr fun n _ => by simp, ?_⟩
    rw [List.map_map]
    have hplain : Value.plain ∘ Value.ofPoints = id := funext Value.plain_ofPoints
    rw [hplain, List.map_id]
    exact horder.again.unique (orderNames_inReportOrder _)
  · obtain ⟨-, rfl⟩ := orderValues_eq_ok_iff.mp hother
    exact (orderNames_inReportOrder _).filter_known_eq horder hsame
  · refine orderValues_eq_ok_iff.mpr ⟨?_, ?_⟩
    · exact List.forall_mem_append.mpr ⟨htexts, fun v hv => (hmore v hv).1⟩
    · rw [List.map_append]
      have hnames : ∀ n ∈ more.map Value.plain, n ∈ given.map Value.plain :=
        List.forall_mem_map.mpr fun v hv => (hmore v hv).2
      exact (horder.append hnames).unique (orderNames_inReportOrder _)

/-- A number with too many digits has no text, and names with it among them have no order. -/
theorem untold_name_has_no_order :
    let given : List Value := [.text "rooms", .tooLong]
    orderValues given = .error .tooLongToWrite ∧ ∀ order, orderValues given ≠ .ok order := by
  intro given
  have hfail : orderValues given = .error .tooLongToWrite :=
    orderValues_eq_error_iff.mpr ⟨⟨.tooLong, by simp [given], Value.hasText_tooLong⟩, rfl⟩
  refine ⟨hfail, fun order h => ?_⟩
  rw [hfail] at h
  cases h

/-- Names given more than once, one of them as a number, and some with a place of their own. -/
theorem names_have_one_report_order_sample :
    let given : List Value :=
      [.text "rooms", .text "user_manager_", .int 7, .text "rooms", .text "file_manager_"]
    let order := ["file_manager_", "user_manager_", "rooms", "7"].map Text.points
    let more : List Value := [.text "7", .text "user_manager_"]
    orderValues given = .ok order ∧ InReportOrder (given.map Value.plain) order ∧
      orderValues (order.map Value.ofPoints) = .ok order ∧
      orderValues (given ++ more) = .ok order := by
  intro given order more
  obtain ⟨hunique, -, hordered⟩ := names_have_one_report_order given
  have horder : orderValues given = .ok order := eq_ok_of_toOption (by decide +kernel)
  obtain ⟨hagain, -, hmore⟩ := hordered order horder
  exact ⟨horder, ((hunique order).mp horder).2, hagain, hmore more (by decide +kernel)⟩

end UsageReport
