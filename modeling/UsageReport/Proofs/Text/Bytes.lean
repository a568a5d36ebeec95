/-
Texts as the bytes that a file holds.  The bytes of a text are those of its characters, one after
the other, so texts put together have their bytes put together, and the byte of a line end stands
for line ends only.
-/
import UsageReport.Text.CodePoint

namespace UsageReport.Text

theorem toList_loop (bs : ByteArray) (i : Nat) (done : List UInt8) :
    ByteArray.toList.loop bs i done = done.reverse ++ bs.data.toList.drop i := by
  fun_induction ByteArray.toList.loop bs i done with
  | case1 i done hi ih =>
      have hlength : i < bs.data.toList.length := by simpa using hi
      rw [ih, List.drop_eq_getElem_cons hlength]
      simp [ByteArray.get!, hi]
  | case2 i done hi =>
      have hlength : bs.data.toList.length ≤ i := by simpa using hi
      rw [List.drop_eq_nil_of_le hlength, List.append_nil]

/-- The bytes of a text are those of its characters in order. -/
theorem toList_toUTF8 (s : String) :
    s.toUTF8.toList = s.toList.flatMap String.utf8EncodeChar := by
  rw [String.toUTF8, ← String.utf8Encode_toList, List.utf8Encode, ByteArray.toList, toList_loop,
    List.toList_data_toByteArray]
  rfl

theorem toList_toUTF8_append (s t : String) :
    (s ++ t).toUTF8.toList = s.toUTF8.toList ++ t.toUTF8.toList := by
  simp only [toList_toUTF8, String.toList_append, List.flatMap_append]

/-- A text has at least as many bytes as characters, and more exactly if a character is beyond
ASCII. -/
theorem length_toUTF8 (cs : List Char) :
    cs.length ≤ (String.ofList cs).toUTF8.toList.length ∧
      (cs.length = (String.ofList cs).toUTF8.toList.length ↔ ∀ c ∈ cs, c.toNat < 128) := by
  rw [toList_toUTF8, String.toList_ofList]
  induction cs with
  | nil => simp
  | cons c rest ih =>
      obtain ⟨hle, heq⟩ := ih
      have hpos : 0 < c.utf8Size := c.utf8Size_pos
      have hone : c.utf8Size = 1 ↔ c.toNat < 128 := by
        rw [Char.utf8Size_eq_one_iff, UInt32.le_iff_toNat_le]
        exact Nat.lt_succ_iff.symm
      rw [List.flatMap_cons, List.length_append, String.length_utf8EncodeChar, List.length_cons,
        List.forall_mem_cons, ← hone, ← heq]
      omega

/-- The byte of a line end. -/
def newlineByte : UInt8 := 10

theorem ofNat_ne_newlineByte {n : Nat} (hlow : 128 ≤ n) (hhigh : n < 256) :
    newlineByte ≠ UInt8.ofNat n := by
  intro h
  have hn := congrArg UInt8.toNat h
  simp only [newlineByte, UInt8.toNat_ofNat', UInt8.toNat_ofNat] at hn
  omega

theorem eq_newline_of_mem_utf8EncodeChar {c : Char} (h : newlineByte ∈ String.utf8EncodeChar c) :
    c = '\n' := by
  have hc : c.val.toNat < 1114112 := by
    rcases c.valid with hvalid | hvalid <;> omega
  simp only [String.utf8EncodeChar] at h
  split at h
  · next hsmall =>
    have hn := congrArg UInt8.toNat (List.mem_singleton.mp h)
    simp only [newlineByte, UInt8.toNat_ofNat', UInt8.toNat_ofNat] at hn
    apply Char.ext
    apply UInt32.toNat_inj.mp
    have hnewline : ('\n' : Char).val.toNat = 10 := rfl
    omega
  · -- All bytes of characters outside ASCII lie above it.
    exfalso
    split at h
    · simp only [List.mem_cons, List.not_mem_nil, or_false] at h
      rcases h with h | h <;> exact ofNat_ne_newlineByte (by omega) (by omega) h
    · split at h
      · simp only [List.mem_cons, List.not_mem_nil, or_false] at h
        rcases h with h | h | h <;> exact ofNat_ne_newlineByte (by omega) (by omega) h
      · simp only [List.mem_cons, List.not_mem_nil, or_false] at h
        rcases h with h | h | h | h <;> exact ofNat_ne_newlineByte (by omega) (by omega) h

/-- The byte of a line end stands for line ends only. -/
theorem newline_mem_of_newlineByte_mem {s : String} (h : newlineByte ∈ s.toUTF8.toList) :
    '\n' ∈ s.toList := by
  rw [toList_toUTF8, List.mem_flatMap] at h
  obtain ⟨c, hc, hbyte⟩ := h
  rwa [← eq_newline_of_mem_utf8EncodeChar hbyte]

end UsageReport.Text
