/-
What series are known by.  The tags of a key stand in ascending order, and that order leaves no
choice: so two dictionaries with the same tags make the same key, whatever the order in which the
tags were set, and tags without a value make no difference at all.
-/
import UsageReport.Metrics.Operation

namespace UsageReport

namespace Text

/-! ### The order of texts -/

theorem CodePoint.rank_injective : Function.Injective CodePoint.rank := by
  intro p q h
  cases p with
  | char c =>
      cases q with
      | char d =>
          simp only [rank, number, isHalf, Bool.false_eq_true, if_false] at h
          have hnat : c.toNat = d.toNat := by omega
          rw [Char.toNat_inj.mp hnat]
      | surrogate n =>
          simp only [rank, number, isHalf, Bool.false_eq_true, if_false, if_true] at h
          omega
  | surrogate m =>
      cases q with
      | char d =>
          simp only [rank, number, isHalf, Bool.false_eq_true, if_false, if_true] at h
          omega
      | surrogate n =>
          simp only [rank, number, isHalf, if_true] at h
          have hnumber : m = n := by omega
          rw [hnumber]

theorem atMost_total (ps qs : List CodePoint) : atMost ps qs = true ∨ atMost qs ps = true := by
  induction ps generalizing qs with
  | nil => exact .inl rfl
  | cons p ps ih =>
      cases qs with
      | nil => exact .inr rfl
      | cons q qs =>
          by_cases hpq : p = q
          · subst hpq
            simpa [atMost] using ih qs
          · have hrank : p.rank ≠ q.rank := fun h => hpq (CodePoint.rank_injective h)
            simp only [atMost, hpq, Ne.symm hpq, if_false, decide_eq_true_eq]
            omega

theorem atMost_antisymm {ps qs : List CodePoint} (h : atMost ps qs = true)
    (h' : atMost qs ps = true) : ps = qs := by
  induction ps generalizing qs with
  | nil =>
      cases qs with
      | nil => rfl
      | cons q qs => cases h'
  | cons p ps ih =>
      cases qs with
      | nil => cases h
      | cons q qs =>
          by_cases hpq : p = q
          · subst hpq
            simp only [atMost, if_true] at h h'
            rw [ih h h']
          · simp only [atMost, hpq, Ne.symm hpq, if_false, decide_eq_true_eq] at h h'
            omega

theorem atMost_trans {ps qs rs : List CodePoint} (h : atMost ps qs = true)
    (h' : atMost qs rs = true) : atMost ps rs = true := by
  induction ps generalizing qs rs with
  | nil => rfl
  | cons p ps ih =>
      cases qs with
      | nil => cases h
      | cons q qs =>
          cases rs with
          | nil => cases h'
          | cons r rs =>
              simp only [atMost] at h h' ⊢
              by_cases hpq : p = q
              · subst hpq
                rw [if_pos rfl] at h
                by_cases hpr : p = r
                · rw [if_pos hpr] at h' ⊢
                  exact ih h h'
                · rwa [if_neg hpr] at h' ⊢
              · rw [if_neg hpq, decide_eq_true_eq] at h
                by_cases hqr : q = r
                · rw [← hqr, if_neg hpq, decide_eq_true_eq]
                  exact h
                · rw [if_neg hqr, decide_eq_true_eq] at h'
                  have hpr : p ≠ r := by
                    rintro rfl
                    omega
                  rw [if_neg hpr, decide_eq_true_eq]
                  omega

end Text

/-! ### The order of tags -/

theorem tagLE_total (a b : List Text.CodePoint × List Text.CodePoint) :
    (tagLE a b || tagLE b a) = true := by
  rw [Bool.or_eq_true]
  unfold tagLE
  by_cases hname : a.1 = b.1
  · simpa [hname] using Text.atMost_total a.2 b.2
  · simpa [hname, Ne.symm hname] using Text.atMost_total a.1 b.1

theorem tagLE_antisymm {a b : List Text.CodePoint × List Text.CodePoint} (h : tagLE a b = true)
    (h' : tagLE b a = true) : a = b := by
  unfold tagLE at h h'
  by_cases hname : a.1 = b.1
  · rw [if_pos hname] at h
    rw [if_pos hname.symm] at h'
    exact Prod.ext hname (Text.atMost_antisymm h h')
  · rw [if_neg hname] at h
    rw [if_neg (Ne.symm hname)] at h'
    exact absurd (Text.atMost_antisymm h h') hname

theorem tagLE_trans (a b c : List Text.CodePoint × List Text.CodePoint) (h : tagLE a b = true)
    (h' : tagLE b c = true) : tagLE a c = true := by
  unfold tagLE at h h' ⊢
  by_cases hab : a.1 = b.1
  · rw [if_pos hab] at h
    rw [hab]
    by_cases hbc : b.1 = c.1
    · rw [if_pos hbc] at h' ⊢
      exact Text.atMost_trans h h'
    · rw [if_neg hbc] at h' ⊢
      exact h'
  · rw [if_neg hab] at h
    by_cases hbc : b.1 = c.1
    · rw [← hbc, if_neg hab]
      exact h
    · rw [if_neg hbc] at h'
      have hac : a.1 ≠ c.1 := fun hac => hab (Text.atMost_antisymm h (hac ▸ h'))
      rw [if_neg hac]
      exact Text.atMost_trans h h'

namespace SeriesKey

variable {name : Value} {tags tags' : Pairs}

/-- The tags of a key are those given, in ascending order. -/
theorem of_tags (name : Value) (tags : Pairs) :
    (of name tags).tags.Perm ((given tags).map fun t => (t.1.plain, t.2.plain)) ∧
      (of name tags).tags.Pairwise (tagLE · · = true) :=
  ⟨List.mergeSort_perm _ _, List.pairwise_mergeSort tagLE_trans tagLE_total _⟩

/-- Tags that are given in ascending order keep it. -/
theorem of_ascending (name : Value)
    (h : ((given tags).map fun t => (t.1.plain, t.2.plain)).Pairwise (tagLE · · = true)) :
    of name tags = ⟨name.plain, (given tags).map fun t => (t.1.plain, t.2.plain)⟩ := by
  rw [of, List.mergeSort_of_pairwise h]

/-- Tags make the same key in whatever order they are given. -/
theorem of_perm (name : Value) (h : tags.Perm tags') : of name tags = of name tags' := by
  have hgiven : ((given tags).map fun t => (t.1.plain, t.2.plain)).Perm
      ((given tags').map fun t => (t.1.plain, t.2.plain)) := (h.filter _).map _
  obtain ⟨hperm, hsorted⟩ := of_tags name tags
  obtain ⟨hperm', hsorted'⟩ := of_tags name tags'
  have htags : (of name tags).tags = (of name tags').tags :=
    (hperm.trans (hgiven.trans hperm'.symm)).eq_of_pairwise
      (fun _ _ _ _ => tagLE_antisymm) hsorted hsorted'
  exact congrArg (mk name.plain) htags

theorem read_perm (name : Value) (h : tags.Perm tags') : read name tags = read name tags' := by
  have hgiven : (given tags).Perm (given tags') := h.filter _
  rw [read, read, of_perm name h, hgiven.all_eq]

/-- Tags without a value are left out of a key. -/
theorem given_of_null (h : ∀ t ∈ tags, t.2 = .null) : given tags = [] := by
  rw [given, List.filter_eq_nil_iff]
  intro t ht
  rw [h t ht]
  exact Bool.false_ne_true

theorem read_of_null (name : Value) (h : ∀ t ∈ tags, t.2 = .null) :
    read name tags = read name [] := by
  have hnone : given ([] : Pairs) = [] := rfl
  simp only [read, of, given_of_null h, hnone]

/-- What has a text has the key of its text. -/
theorem eq_of_read {key : SeriesKey} (h : read name tags = .ok key) : key = of name tags := by
  unfold read at h
  split at h
  · exact (Except.ok.inj h).symm
  · cases h

end SeriesKey

end UsageReport
