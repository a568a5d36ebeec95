/-
UTF-8 there and back.  The bytes that a character is written as are read as that character,
whatever follows them, so the bytes of a text are read as the text.
-/
import UsageReport.Proofs.Text.Bytes
import UsageReport.Text.Utf8

namespace UsageReport.Text

theorem toNat_ofNat {n : Nat} (h : n < 256) : (UInt8.ofNat n).toNat = n := by
  rw [UInt8.toNat_ofNat']
  exact Nat.mod_eq_of_lt h

/-- A continuation byte in its range is taken. -/
theorem utf8Continue_cons {low high n code taken b : Nat} (rest : List UInt8) (hb : b < 256)
    (hlow : low ≤ b) (hhigh : b ≤ high) :
    utf8Continue low high (n + 1) code taken (UInt8.ofNat b :: rest) =
      utf8Continue 0x80 0xBF n (code * 64 + (b - 0x80)) (taken + 1) rest := by
  rw [utf8Continue, toNat_ofNat hb, if_pos ⟨hlow, hhigh⟩]

/-- A first byte and the continuation bytes it announces make a character. -/
theorem utf8Next_eq_ok {b code : Nat} {lead : Utf8Lead} {bytes rest : List UInt8} (hb : b < 256)
    (hlead : utf8Lead? b = some lead)
    (hcode : utf8Continue lead.low lead.high lead.following lead.bits 1 bytes =
      .ok (code, rest)) : utf8Next (UInt8.ofNat b) bytes = .ok (Char.ofNat code, rest) := by
  rw [utf8Next, toNat_ofNat hb, hlead]
  simp only [hcode, Except.map]

section Lead

variable {b : Nat}

theorem utf8Lead?_one (h : b < 0x80) : utf8Lead? b = some ⟨0, b, 0, 0⟩ := by
  rw [utf8Lead?, if_pos h]

theorem utf8Lead?_two (hlow : 0xC2 ≤ b) (hhigh : b < 0xE0) :
    utf8Lead? b = some ⟨1, b - 0xC0, 0x80, 0xBF⟩ := by
  rw [utf8Lead?, if_neg (by omega), if_neg (by omega), if_pos hhigh]

theorem utf8Lead?_three (hlow : 0xE0 ≤ b) (hhigh : b < 0xF0) : utf8Lead? b =
    some ⟨2, b - 0xE0, if b = 0xE0 then 0xA0 else 0x80, if b = 0xED then 0x9F else 0xBF⟩ := by
  rw [utf8Lead?, if_neg (by omega), if_neg (by omega), if_neg (by omega), if_pos hhigh]

theorem utf8Lead?_four (hlow : 0xF0 ≤ b) (hhigh : b < 0xF5) : utf8Lead? b =
    some ⟨3, b - 0xF0, if b = 0xF0 then 0x90 else 0x80, if b = 0xF4 then 0x8F else 0xBF⟩ := by
  rw [utf8Lead?, if_neg (by omega), if_neg (by omega), if_neg (by omega), if_neg (by omega),
    if_pos hhigh]

end Lead

/-- A character is read back from its bytes, whatever follows. -/
theorem utf8Next_utf8EncodeChar (c : Char) (rest : List UInt8) :
    ∃ b more, String.utf8EncodeChar c = b :: more ∧ utf8Next b (more ++ rest) = .ok (c, rest) := by
  -- Halves of surrogate pairs are no characters, so the ranges of second bytes fit.
  have hvalid : c.val.toNat < 0xD800 ∨ 0xDFFF < c.val.toNat ∧ c.val.toNat < 0x110000 := c.valid
  have hc {n : Nat} (h : n = c.val.toNat) : Char.ofNat n = c := by
    rw [h]
    exact Char.ofNat_toNat c
  generalize hv : c.val.toNat = v at hvalid hc
  simp only [String.utf8EncodeChar, hv]
  split
  · next hone =>
    refine ⟨_, _, rfl, ?_⟩
    rw [utf8Next_eq_ok (by omega) (utf8Lead?_one (by omega)) rfl, hc rfl]
    rfl
  split
  · next htwo =>
    refine ⟨_, _, rfl, ?_⟩
    have hcode : utf8Continue 0x80 0xBF 1 (v / 64 % 32 + 192 - 0xC0) 1
        (UInt8.ofNat (v % 64 + 128) :: rest) = .ok (v, rest) := by
      have hsum : (v / 64 % 32 + 192 - 0xC0) * 64 + (v % 64 + 128 - 0x80) = v := by omega
      rw [utf8Continue_cons rest (by omega) (by omega) (by omega), utf8Continue, hsum]
    exact hc rfl ▸ utf8Next_eq_ok (by omega) (utf8Lead?_two (by omega) (by omega)) hcode
  split
  · next hthree =>
    refine ⟨_, _, rfl, ?_⟩
    have hcode : utf8Continue (if v / 4096 % 16 + 224 = 0xE0 then 0xA0 else 0x80)
        (if v / 4096 % 16 + 224 = 0xED then 0x9F else 0xBF) 2 (v / 4096 % 16 + 224 - 0xE0) 1
        (UInt8.ofNat (v / 64 % 64 + 128) :: UInt8.ofNat (v % 64 + 128) :: rest) =
          .ok (v, rest) := by
      have hsum : ((v / 4096 % 16 + 224 - 0xE0) * 64 + (v / 64 % 64 + 128 - 0x80)) * 64 +
          (v % 64 + 128 - 0x80) = v := by omega
      rw [utf8Continue_cons _ (by omega) (by split <;> omega) (by split <;> omega),
        utf8Continue_cons rest (by omega) (by omega) (by omega), utf8Continue, hsum]
    exact hc rfl ▸ utf8Next_eq_ok (by omega) (utf8Lead?_three (by omega) (by omega)) hcode
  · next hfour =>
    refine ⟨_, _, rfl, ?_⟩
    have hcode : utf8Continue (if v / 262144 % 8 + 240 = 0xF0 then 0x90 else 0x80)
        (if v / 262144 % 8 + 240 = 0xF4 then 0x8F else 0xBF) 3 (v / 262144 % 8 + 240 - 0xF0) 1
        (UInt8.ofNat (v / 4096 % 64 + 128) :: UInt8.ofNat (v / 64 % 64 + 128) ::
          UInt8.ofNat (v % 64 + 128) :: rest) = .ok (v, rest) := by
      have hsum : (((v / 262144 % 8 + 240 - 0xF0) * 64 + (v / 4096 % 64 + 128 - 0x80)) * 64 +
          (v / 64 % 64 + 128 - 0x80)) * 64 + (v % 64 + 128 - 0x80) = v := by omega
      rw [utf8Continue_cons _ (by omega) (by split <;> omega) (by split <;> omega),
        utf8Continue_cons _ (by omega) (by omega) (by omega),
        utf8Continue_cons rest (by omega) (by omega) (by omega), utf8Continue, hsum]
    exact hc rfl ▸ utf8Next_eq_ok (by omega) (utf8Lead?_four (by omega) (by omega)) hcode

theorem utf8Loop_flatMap (cs : List Char) {fuel : Nat} (hfuel : cs.length ≤ fuel) (position : Nat)
    (done : List Char) :
    utf8Loop fuel position done (cs.flatMap String.utf8EncodeChar) = .ok (done.reverse ++ cs) := by
  induction cs generalizing fuel position done with
  | nil => cases fuel <;> simp [utf8Loop]
  | cons c cs ih =>
      cases fuel with
      | zero => simp at hfuel
      | succ fuel =>
          obtain ⟨b, more, hencode, hnext⟩ :=
            utf8Next_utf8EncodeChar c (cs.flatMap String.utf8EncodeChar)
          rw [List.flatMap_cons, hencode, List.cons_append, utf8Loop, hnext]
          simp only
          rw [ih (by simpa using hfuel)]
          simp

theorem length_le_flatMap_utf8EncodeChar (cs : List Char) :
    cs.length ≤ (cs.flatMap String.utf8EncodeChar).length := by
  induction cs with
  | nil => simp
  | cons c cs ih =>
      obtain ⟨b, more, hencode, -⟩ := utf8Next_utf8EncodeChar c []
      rw [List.flatMap_cons, hencode]
      simp only [List.length_append, List.length_cons]
      omega

/-- A text is read back from its bytes. -/
theorem utf8Decode_toUTF8 (s : String) : utf8Decode s.toUTF8.toList = .ok s.toList := by
  rw [toList_toUTF8, utf8Decode, utf8Loop_flatMap _ (length_le_flatMap_utf8EncodeChar _)]
  rfl

end UsageReport.Text
