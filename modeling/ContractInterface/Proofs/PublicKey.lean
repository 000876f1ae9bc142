import ContractInterface.Proofs.Document.Agreement
import ContractInterface.Proofs.Json.Token
import ContractInterface.Proofs.TypeDesc.Acceptance
import ContractInterface.PublicKey

/-!
# Keys identify contracts

The key of a contract is read back in two steps: its digits, two for each byte, and its bytes, the
first eight of which are the index with the least significant byte in front.  So a key tells the
index of its contract, and no two contracts have the same one.

Every value but the indices is refused.  The wording shows the value, so a value that cannot be
written is refused for that.
-/

namespace ContractInterface.PublicKey

/-! ### Reading keys -/

/-- The number whose bytes are given, least significant first. -/
def ofLittleEndian : List Nat → Nat
  | [] => 0
  | b :: bytes => b + 256 * ofLittleEndian bytes

/-- The bytes that a text spells with two hexadecimal digits each. -/
def readBytes? : Text → Option (List Nat)
  | [] => some []
  | [_] => none
  | high :: low :: t => do
    let h ← hexValue? high
    let l ← hexValue? low
    return (16 * h + l) :: (← readBytes? t)

/-- The hexadecimal digits in lower case. -/
def lowerDigits : List Char := "0123456789abcdef".toList

/-- A key of 64 hexadecimal digits in lower case that identifies the contract with an index: the
first eight of its 32 bytes are the index with the least significant byte in front, and the others
are zero. -/
structure Identifies (key : String) (index : Nat) : Prop where
  length : key.toList.length = 64
  digits : ∀ c ∈ key.toList, c ∈ lowerDigits
  bytes : ∃ low : List Nat, low.length = 8 ∧ ofLittleEndian low = index ∧
    readBytes? key.toList = some (low ++ List.replicate 24 0)

/-- A key identifies at most one contract. -/
theorem Identifies.unique {key : String} {index index' : Nat} (h : Identifies key index)
    (h' : Identifies key index') :
  index = index'
  := by
  obtain ⟨low, hlength, rfl, hread⟩ := h.bytes
  obtain ⟨low', hlength', rfl, hread'⟩ := h'.bytes
  have hbytes := Option.some.inj (hread.symm.trans hread')
  rw [List.append_cancel_right hbytes]

/-- Keys that identify contracts are what the schema asks of keys. -/
theorem Identifies.isKeyText {key : String} {index : Nat} (h : Identifies key index) :
  Schema.isKeyText (.text key)
  := by
  have hhex : lowerDigits.all isHex := by decide
  apply Header.isKeyText_of_hex h.length
  apply List.all_eq_true.mpr
  intro c hc
  exact List.all_eq_true.mp hhex c (h.digits c hc)

/-! ### Writing keys -/

theorem length_littleEndian (count n : Nat) :
  (littleEndian count n).length = count
  := by
  induction count generalizing n with
  | zero => rfl
  | succ count ih => rw [littleEndian, List.length_cons, ih]

theorem lt_of_mem_littleEndian {count n b : Nat} (h : b ∈ littleEndian count n) :
  b < 256
  := by
  induction count generalizing n with
  | zero => contradiction
  | succ count ih =>
      rcases List.mem_cons.mp h with rfl | h
      · apply Nat.mod_lt _ (by decide)
      · exact ih h

theorem ofLittleEndian_littleEndian {count n : Nat} (h : n < 256 ^ count) :
  ofLittleEndian (littleEndian count n) = n
  := by
  induction count generalizing n with
  | zero =>
      obtain rfl : n = 0 := by simpa using h
      rfl
  | succ count ih =>
      have hdiv : n / 256 < 256 ^ count := by
        apply Nat.div_lt_of_lt_mul
        rw [Nat.mul_comm, ← Nat.pow_succ]
        exact h
      rw [littleEndian, ofLittleEndian, ih hdiv, Nat.mod_add_div]

theorem hexByte_eq (b : Nat) :
  hexByte b = [Text.hexDigit (b / 16 % 16), Text.hexDigit (b % 16)]
  := rfl

/-- What is written of bytes is read as these bytes. -/
theorem readBytes?_flatMap {bytes : List Nat} (h : ∀ b ∈ bytes, b < 256) :
  readBytes? (bytes.flatMap hexByte) = some bytes
  := by
  induction bytes with
  | nil => rfl
  | cons b bytes ih =>
      obtain ⟨hb, hbytes⟩ := List.forall_mem_cons.mp h
      have hhigh := Json.hexValue?_hexDigit (b / 16 % 16) (Nat.mod_lt _ (by decide))
      have hlow := Json.hexValue?_hexDigit (b % 16) (Nat.mod_lt _ (by decide))
      have hbyte : 16 * (b / 16 % 16) + b % 16 = b := by omega
      rw [List.flatMap_cons, hexByte_eq, List.cons_append, List.cons_append, List.nil_append,
        readBytes?, hhigh, hlow, ih hbytes]
      change some (_ :: bytes) = _
      rw [hbyte]

theorem mem_lowerDigits_of_mem_hexByte {b : Nat} {c : Char} (h : c ∈ hexByte b) :
  c ∈ lowerDigits
  := by
  have hdigit : ∀ n < 16, Text.hexDigit n ∈ lowerDigits := by decide
  rw [hexByte_eq, List.mem_cons, List.mem_singleton] at h
  rcases h with rfl | rfl
  · apply hdigit _ (Nat.mod_lt _ (by decide))
  · apply hdigit _ (Nat.mod_lt _ (by decide))

/-- The key of a contract identifies it. -/
theorem identifies_hex {n : Nat} (h : n < indexBound) :
  Identifies (hex n) n
  := by
  have hlength : (bytes n).length = 32 := by
    rw [bytes, List.length_append, length_littleEndian, List.length_replicate]
    rfl
  have hbytes : ∀ b ∈ bytes n, b < 256 := by
    intro b hb
    rcases List.mem_append.mp hb with hb | hb
    · exact lt_of_mem_littleEndian hb
    · rw [List.eq_of_mem_replicate hb]
      decide
  have hdigits : (hex n).toList = (bytes n).flatMap hexByte := String.toList_ofList
  constructor
  · rw [hdigits, List.length_flatMap]
    have hbyte : ∀ b, (hexByte b).length = 2 := Json.length_hexDigits 2
    simp [hbyte, hlength]
  · intro c hc
    rw [hdigits, List.mem_flatMap] at hc
    obtain ⟨b, -, hc⟩ := hc
    exact mem_lowerDigits_of_mem_hexByte hc
  · refine ⟨littleEndian 8 n, length_littleEndian 8 n, ?_, ?_⟩
    · apply ofLittleEndian_littleEndian
      apply Nat.lt_of_lt_of_le h
      decide
    · rw [hdigits, readBytes?_flatMap hbytes]
      rfl

/-! ### Values as indices -/

/-- The key of the contract whose index is a given value, if the value is an index. -/
theorem ofJson_eq_ok_iff {v : Json} {key : String} :
  ofJson v = .ok key ↔ ∃ n : Nat, n < indexBound ∧ v = .int n ∧ key = hex n
  := by
  rw [ofJson]
  constructor
  · intro h
    split at h
    · rename_i n hn
      split at h
      · rename_i hbound
        exact ⟨n, hbound, TypeDesc.nat?_eq_some_iff.mp hn, (Except.ok.inj h).symm⟩
      · contradiction
    · contradiction
  · rintro ⟨n, hbound, rfl, rfl⟩
    change (if n < indexBound then _ else _) = _
    rw [if_pos hbound]

/-! ### Values that are refused -/

section Refusal

variable {v : Json}

theorem refusal_eq_index_iff :
  refusal v = .index ⟨v⟩ ↔ v.isWritable
  := by
  rw [refusal]
  split
  · rename_i hwritable
    simp [hwritable]
  · rename_i hunwritable
    simp [hunwritable]

theorem refusal_eq_unwritable_iff :
  refusal v = .numeral .unwritable ↔ ¬ v.isWritable
  := by
  rw [refusal]
  split
  · rename_i hwritable
    simp [hwritable]
  · rename_i hunwritable
    simp [hunwritable]

/-- The values that are refused are those that are no indices. -/
theorem ofJson_eq_error_iff {e : Refusal} :
  ofJson v = .error e ↔ (∀ n : Nat, n < indexBound → v ≠ .int n) ∧ refusal v = e
  := by
  constructor
  · intro h
    have hother : ∀ n : Nat, n < indexBound → v ≠ .int n := by
      rintro n hn rfl
      rw [ofJson_eq_ok_iff.mpr ⟨n, hn, rfl, rfl⟩] at h
      contradiction
    use hother
    rw [ofJson] at h
    split at h
    · split at h
      · contradiction
      · exact Except.error.inj h
    · exact Except.error.inj h
  · rintro ⟨hother, rfl⟩
    rw [ofJson]
    split
    · rename_i n hn
      rw [if_neg]
      intro hbound
      exact hother n hbound (TypeDesc.nat?_eq_some_iff.mp hn)
    · rfl

/-- An index can be written, so a value that cannot be written is none. -/
theorem ne_index_of_not_isWritable (h : ¬ v.isWritable) :
  ∀ n : Nat, n < indexBound → v ≠ .int n
  := by
  rintro n hn rfl
  apply h
  apply Numeral.isWritable_natCast_iff.mpr
  calc n
    _ < indexBound := hn
    _ ≤ 10 ^ 32 := Nat.pow_le_pow_left (by decide) 32
    _ ≤ 10 ^ Numeral.digitLimit := Nat.pow_le_pow_right (by decide) (by decide)

/-- A value is refused for being no index exactly if it is none and can be written. -/
theorem ofJson_eq_index_iff :
  ofJson v = .error (.index ⟨v⟩) ↔ v.isWritable ∧ ∀ n : Nat, n < indexBound → v ≠ .int n
  := by
  rw [ofJson_eq_error_iff, refusal_eq_index_iff, and_comm]

/-- A value is refused for a number in it exactly if it cannot be written. -/
theorem ofJson_eq_unwritable_iff :
  ofJson v = .error (.numeral .unwritable) ↔ ¬ v.isWritable
  := by
  rw [ofJson_eq_error_iff, refusal_eq_unwritable_iff]
  apply and_iff_right_of_imp ne_index_of_not_isWritable

end Refusal

end ContractInterface.PublicKey
