/-
Which values can be written.  In the compact notation a value fails exactly if some part of it has
no JSON form: its kind, a number that is not finite, a number with too many digits, or a key that
cannot be one.  The failure is about such a part.
-/
import UsageReport.Proofs.Json.RoundTrip

namespace UsageReport

/-- The number is neither infinite nor none at all. -/
def Decimal.IsFinite (x : Float) : Prop :=
  ∃ negative m q, Decimal.Parts.ofFloat x = .finite negative m q

mutual

/-- Whether no text in a value, keys included, has half of a surrogate pair alone. -/
def Value.isWhole : Value → Bool
  | .broken _ => false
  | .list xs | .tuple xs | .set xs => Value.allWhole xs
  | .dict pairs => Value.pairsWhole pairs
  | _ => true

def Value.allWhole : List Value → Bool
  | [] => true
  | x :: xs => Value.isWhole x && Value.allWhole xs

def Value.pairsWhole : List (Value × Value) → Bool
  | [] => true
  | (k, v) :: rest => Value.isWhole k && Value.isWhole v && Value.pairsWhole rest

end

namespace Value

/-- Why a value cannot be the key of an object. -/
inductive NoKey : Value → Failure → Prop
  | notFinite {x : Float} (h : ¬Decimal.IsFinite x) : NoKey (.float x) .notFinite
  | tooLong {n : Int} (h : Json.digitLimit < (Decimal.digitChars n.natAbs).length) :
      NoKey (.int n) .tooLongToWrite
  | kind {v : Value} (h : v.kindName ∈ ["bytes", "list", "tuple", "set", "dict"]) :
      NoKey v (.keyKind v.kindName)

/-- A part of a value has no JSON form, and that is why. -/
inductive Obstructed : Value → Failure → Prop
  | kind {v : Value} (h : v.kindName ∈ ["bytes", "set"]) : Obstructed v (.valueKind v.kindName)
  | notFinite {x : Float} (h : ¬Decimal.IsFinite x) : Obstructed (.float x) .notFinite
  | tooLong {n : Int} (h : Json.digitLimit < (Decimal.digitChars n.natAbs).length) :
      Obstructed (.int n) .tooLongToWrite
  | list {xs : List Value} {x : Value} {failure : Failure} (hx : x ∈ xs)
      (h : Obstructed x failure) : Obstructed (.list xs) failure
  | tuple {xs : List Value} {x : Value} {failure : Failure} (hx : x ∈ xs)
      (h : Obstructed x failure) : Obstructed (.tuple xs) failure
  | key {pairs : List (Value × Value)} {p : Value × Value} {failure : Failure} (hp : p ∈ pairs)
      (h : NoKey p.1 failure) : Obstructed (.dict pairs) failure
  | content {pairs : List (Value × Value)} {p : Value × Value} {failure : Failure}
      (hp : p ∈ pairs) (h : Obstructed p.2 failure) : Obstructed (.dict pairs) failure

end Value

namespace Json

theorem Style.compact_spaced : Style.compact.Spaced where
  plain := rfl
  separator := ⟨[], blank_nil, rfl⟩
  afterName := ⟨[], blank_nil, rfl⟩

variable {level : Nat} {failure : Failure}

theorem writeInt_eq_error_iff {n : Int} : writeInt n = .error failure ↔
    digitLimit < (Decimal.digitChars n.natAbs).length ∧ failure = .tooLongToWrite := by
  unfold writeInt
  by_cases h : digitLimit < (Decimal.digitChars n.natAbs).length
  · simp [h, eq_comm]
  · simp [h]

/-- Only finite numbers are written in the compact notation. -/
theorem compact_writeFloat_eq_error_iff {x : Float} :
    Style.compact.writeFloat x = .error failure ↔
      ¬Decimal.IsFinite x ∧ failure = .notFinite := by
  unfold Style.writeFloat Decimal.IsFinite
  cases hparts : Decimal.Parts.ofFloat x with
  | finite negative m q => simp
  | nan => simp [Style.compact, eq_comm]
  | infinite negative => simp [Style.compact, eq_comm]

/-- A key of whole texts is refused for a reason. -/
theorem noKey_of_name {key : Value} (hwhole : key.isWhole = true)
    (h : Style.compact.name key = .error failure) : key.NoKey failure := by
  cases key with
  | text s => cases h
  | broken points => cases hwhole
  | null => cases h
  | bool b => cases h
  | int n =>
      obtain ⟨hlong, rfl⟩ := writeInt_eq_error_iff.mp (eq_error_of_map_eq_error h)
      exact .tooLong hlong
  | float x =>
      obtain ⟨hx, rfl⟩ := compact_writeFloat_eq_error_iff.mp (eq_error_of_map_eq_error h)
      exact .notFinite hx
  | bytes bs =>
      cases h
      exact .kind (v := .bytes bs) (by simp [Value.kindName])
  | list xs =>
      cases h
      exact .kind (v := .list xs) (by simp [Value.kindName])
  | tuple xs =>
      cases h
      exact .kind (v := .tuple xs) (by simp [Value.kindName])
  | set xs =>
      cases h
      exact .kind (v := .set xs) (by simp [Value.kindName])
  | dict pairs =>
      cases h
      exact .kind (v := .dict pairs) (by simp [Value.kindName])

/-- A key with a reason against it is refused. -/
theorem not_noKey_of_name {key : Value} {cs : List Char} (h : Style.compact.name key = .ok cs) :
    ¬key.NoKey failure := by
  intro hkey
  cases hkey with
  | notFinite hx =>
      obtain ⟨digits, hdigits, -⟩ := exists_of_map_eq_ok h
      rw [compact_writeFloat_eq_error_iff.mpr ⟨hx, rfl⟩] at hdigits
      cases hdigits
  | tooLong hlong =>
      obtain ⟨digits, hdigits, -⟩ := exists_of_map_eq_ok h
      rw [writeInt_eq_error_iff.mpr ⟨hlong, rfl⟩] at hdigits
      cases hdigits
  | kind hkind =>
      cases key with
      | bytes | list | tuple | set | dict => cases h
      | null | bool | int | float | text | broken => simp [Value.kindName] at hkind

mutual

/-- Where a value of whole texts is not written, a part of it is in the way. -/
theorem obstructed_of_write {level : Nat} (v : Value) (hwhole : v.isWhole = true)
    (h : Style.compact.write level v = .error failure) : v.Obstructed failure := by
  cases v with
  | null => cases h
  | bool b => cases h
  | text s => cases h
  | broken points => cases hwhole
  | int n =>
      obtain ⟨hlong, rfl⟩ := writeInt_eq_error_iff.mp h
      exact .tooLong hlong
  | float x =>
      obtain ⟨hx, rfl⟩ := compact_writeFloat_eq_error_iff.mp h
      exact .notFinite hx
  | bytes bs =>
      cases h
      exact .kind (v := .bytes bs) (by simp [Value.kindName])
  | set xs =>
      cases h
      exact .kind (v := .set xs) (by simp [Value.kindName])
  | list xs =>
      rcases exists_of_bind_eq_error h with h | ⟨parts, -, h⟩
      · obtain ⟨x, hx, hobstructed⟩ := exists_obstructed_of_writeAll xs hwhole h
        exact .list hx hobstructed
      · cases h
  | tuple xs =>
      rcases exists_of_bind_eq_error h with h | ⟨parts, -, h⟩
      · obtain ⟨x, hx, hobstructed⟩ := exists_obstructed_of_writeAll xs hwhole h
        exact .tuple hx hobstructed
      · cases h
  | dict pairs =>
      rcases exists_of_bind_eq_error h with h | ⟨parts, -, h⟩
      · obtain ⟨p, hp, hkey | hcontent⟩ := exists_obstructed_of_writePairs pairs hwhole h
        · exact .key hp hkey
        · exact .content hp hcontent
      · cases h

theorem exists_obstructed_of_writeAll {level : Nat} (xs : List Value)
    (hwhole : Value.allWhole xs = true) (h : Style.compact.writeAll level xs = .error failure) :
    ∃ x ∈ xs, x.Obstructed failure := by
  cases xs with
  | nil => cases h
  | cons x xs =>
      rw [Value.allWhole, Bool.and_eq_true] at hwhole
      rcases exists_of_bind_eq_error h with h | ⟨part, -, h⟩
      · exact ⟨x, List.mem_cons_self, obstructed_of_write x hwhole.1 h⟩
      · rcases exists_of_bind_eq_error h with h | ⟨parts, -, h⟩
        · obtain ⟨y, hy, hobstructed⟩ := exists_obstructed_of_writeAll xs hwhole.2 h
          exact ⟨y, List.mem_cons_of_mem _ hy, hobstructed⟩
        · cases h

theorem exists_obstructed_of_writePairs {level : Nat} (pairs : List (Value × Value))
    (hwhole : Value.pairsWhole pairs = true)
    (h : Style.compact.writePairs level pairs = .error failure) :
    ∃ p ∈ pairs, p.1.NoKey failure ∨ p.2.Obstructed failure := by
  cases pairs with
  | nil => cases h
  | cons pair pairs =>
      obtain ⟨k, v⟩ := pair
      rw [Value.pairsWhole, Bool.and_eq_true, Bool.and_eq_true] at hwhole
      rcases exists_of_bind_eq_error h with h | ⟨name, -, h⟩
      · exact ⟨(k, v), List.mem_cons_self, .inl (noKey_of_name hwhole.1.1 h)⟩
      · rcases exists_of_bind_eq_error h with h | ⟨value, -, h⟩
        · exact ⟨(k, v), List.mem_cons_self, .inr (obstructed_of_write v hwhole.1.2 h)⟩
        · rcases exists_of_bind_eq_error h with h | ⟨parts, -, h⟩
          · obtain ⟨p, hp, hreason⟩ := exists_obstructed_of_writePairs pairs hwhole.2 h
            exact ⟨p, List.mem_cons_of_mem _ hp, hreason⟩
          · cases h

end

mutual

/-- A number that is not finite is in the way, wherever it stands as a value. -/
theorem obstructed_of_mem_floats (v : Value) {x : Float} (hx : x ∈ v.floats)
    (hfinite : ¬Decimal.IsFinite x) : v.Obstructed .notFinite := by
  cases v with
  | null | bool | int | text | broken | bytes | set => cases hx
  | float y =>
      obtain rfl := List.mem_singleton.mp hx
      exact .notFinite hfinite
  | list xs =>
      obtain ⟨y, hy, hobstructed⟩ := exists_obstructed_of_mem_floatsAll xs hx hfinite
      exact .list hy hobstructed
  | tuple xs =>
      obtain ⟨y, hy, hobstructed⟩ := exists_obstructed_of_mem_floatsAll xs hx hfinite
      exact .tuple hy hobstructed
  | dict pairs =>
      obtain ⟨p, hp, hobstructed⟩ := exists_obstructed_of_mem_floatsPairs pairs hx hfinite
      exact .content hp hobstructed

theorem exists_obstructed_of_mem_floatsAll (xs : List Value) {x : Float}
    (hx : x ∈ Value.floatsAll xs) (hfinite : ¬Decimal.IsFinite x) :
    ∃ y ∈ xs, y.Obstructed .notFinite := by
  cases xs with
  | nil => cases hx
  | cons y ys =>
      rw [Value.floatsAll, List.mem_append] at hx
      rcases hx with hx | hx
      · exact ⟨y, List.mem_cons_self, obstructed_of_mem_floats y hx hfinite⟩
      · obtain ⟨z, hz, hobstructed⟩ := exists_obstructed_of_mem_floatsAll ys hx hfinite
        exact ⟨z, List.mem_cons_of_mem _ hz, hobstructed⟩

theorem exists_obstructed_of_mem_floatsPairs (pairs : List (Value × Value)) {x : Float}
    (hx : x ∈ Value.floatsPairs pairs) (hfinite : ¬Decimal.IsFinite x) :
    ∃ p ∈ pairs, p.2.Obstructed .notFinite := by
  cases pairs with
  | nil => cases hx
  | cons pair rest =>
      obtain ⟨k, v⟩ := pair
      rw [Value.floatsPairs, List.mem_append] at hx
      rcases hx with hx | hx
      · exact ⟨(k, v), List.mem_cons_self, obstructed_of_mem_floats v hx hfinite⟩
      · obtain ⟨p, hp, hobstructed⟩ := exists_obstructed_of_mem_floatsPairs rest hx hfinite
        exact ⟨p, List.mem_cons_of_mem _ hp, hobstructed⟩

end

/-! ### Whatever is written has nothing in the way -/

theorem write_of_writeAll {xs : List Value} {parts : List (List Char)}
    (h : Style.compact.writeAll level xs = .ok parts) {x : Value} (hx : x ∈ xs) :
    ∃ cs, Style.compact.write level x = .ok cs := by
  induction xs generalizing parts with
  | nil => cases hx
  | cons y ys ih =>
      obtain ⟨part, hpart, h⟩ := exists_of_bind_eq_ok h
      obtain ⟨rest, hrest, -⟩ := exists_of_bind_eq_ok h
      rcases List.mem_cons.mp hx with rfl | hmem
      · exact ⟨part, hpart⟩
      · exact ih hrest hmem

theorem write_of_writePairs {pairs : List (Value × Value)} {parts : List (List Char)}
    (h : Style.compact.writePairs level pairs = .ok parts) {p : Value × Value} (hp : p ∈ pairs) :
    (∃ name, Style.compact.name p.1 = .ok name) ∧
      ∃ cs, Style.compact.write level p.2 = .ok cs := by
  induction pairs generalizing parts with
  | nil => cases hp
  | cons pair rest ih =>
      obtain ⟨k, v⟩ := pair
      obtain ⟨name, hname, h⟩ := exists_of_bind_eq_ok h
      obtain ⟨value, hvalue, h⟩ := exists_of_bind_eq_ok h
      obtain ⟨others, hothers, -⟩ := exists_of_bind_eq_ok h
      rcases List.mem_cons.mp hp with rfl | hmem
      · exact ⟨⟨name, hname⟩, value, hvalue⟩
      · exact ih hothers hmem

/-- A value with a part in the way is not written. -/
theorem not_obstructed_of_write {v : Value} {cs : List Char}
    (h : Style.compact.write level v = .ok cs) : ¬v.Obstructed failure := by
  intro hobstructed
  induction hobstructed generalizing level cs with
  | kind hkind =>
      rename_i v
      cases v with
      | bytes | set => cases h
      | null | bool | int | float | text | broken | list | tuple | dict =>
          simp [Value.kindName] at hkind
  | notFinite hx =>
      rw [show Style.compact.write level (.float _) = Style.compact.writeFloat _ from rfl,
        compact_writeFloat_eq_error_iff.mpr ⟨hx, rfl⟩] at h
      cases h
  | tooLong hlong =>
      rw [show Style.compact.write level (.int _) = writeInt _ from rfl,
        writeInt_eq_error_iff.mpr ⟨hlong, rfl⟩] at h
      cases h
  | list hx _ ih =>
      obtain ⟨parts, hparts, -⟩ := exists_of_bind_eq_ok h
      obtain ⟨part, hpart⟩ := write_of_writeAll hparts hx
      exact ih hpart
  | tuple hx _ ih =>
      obtain ⟨parts, hparts, -⟩ := exists_of_bind_eq_ok h
      obtain ⟨part, hpart⟩ := write_of_writeAll hparts hx
      exact ih hpart
  | key hp hkey =>
      obtain ⟨parts, hparts, -⟩ := exists_of_bind_eq_ok h
      obtain ⟨⟨name, hname⟩, -⟩ := write_of_writePairs hparts hp
      exact not_noKey_of_name hname hkey
  | content hp _ ih =>
      obtain ⟨parts, hparts, -⟩ := exists_of_bind_eq_ok h
      obtain ⟨-, value, hvalue⟩ := write_of_writePairs hparts hp
      exact ih hvalue

end Json

end UsageReport
