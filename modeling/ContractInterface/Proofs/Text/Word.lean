import ContractInterface.Text.Blank
import ContractInterface.Text.Word
import Mathlib.Data.List.Basic
import Mathlib.Data.List.TakeWhile

/-!
# Words and blanks

No blank is a word character, so the characters of an identifier are solid, and an identifier is
taken whole off the front of a text in which no word character follows it.
-/

namespace ContractInterface

/-- The code points of the blanks. -/
def blankCodes : List Nat :=
  [32, 9, 10, 11, 12, 13, 28, 29, 30, 31, 0x85, 0xa0, 0x1680, 0x2000, 0x2001, 0x2002, 0x2003,
    0x2004, 0x2005, 0x2006, 0x2007, 0x2008, 0x2009, 0x200a, 0x2028, 0x2029, 0x202f, 0x205f, 0x3000]

theorem mem_blankCodes {c : Char} (h : isBlank c) :
  c.toNat ∈ blankCodes
  := by
  simp only [isBlank, Bool.or_eq_true, Bool.and_eq_true, beq_iff_eq, decide_eq_true_eq] at h
  simp only [blankCodes, List.mem_cons, List.not_mem_nil, or_false]
  omega

theorem isAlphanumeric_of_isBlank {c : Char} (h : isBlank c) :
  isAlphanumeric c = false
  := by
  have hascii : ∀ n ∈ blankCodes, n < 128 → (Char.ofNat n).isAlphanum = false := by
    decide
  have htable : ∀ n ∈ blankCodes, ¬ n < 128 →
      alphanumericRanges.toList.any (fun range => range.1 ≤ n && n ≤ range.2) = false := by
    decide +kernel
  rw [isAlphanumeric]
  split
  · rename_i hc
    simpa using hascii c.toNat (mem_blankCodes h) hc
  · rename_i hc
    rw [inRanges, ← Array.any_toList]
    apply htable c.toNat (mem_blankCodes h) hc

theorem isWord_of_isBlank {c : Char} (h : isBlank c) :
  isWord c = false
  := by
  have hne : c ≠ '_' := by
    rintro rfl
    contradiction
  simp [isWord, isAlphanumeric_of_isBlank h, hne]

theorem isBlank_of_isWord {c : Char} (h : isWord c) :
  isBlank c = false
  := by
  by_contra hblank
  simp [isWord_of_isBlank (by simpa using hblank)] at h

theorem toNat_lt_of_isDigit {c : Char} (h : c.isDigit) :
  c.toNat < 128
  := by
  simp only [Char.isDigit, Bool.and_eq_true, decide_eq_true_eq, ge_iff_le,
    UInt32.le_iff_toNat_le] at h
  exact Nat.lt_of_le_of_lt h.2 (by decide)

theorem isWord_of_isDigit {c : Char} (h : c.isDigit) :
  isWord c
  := by
  simp [isWord, isAlphanumeric, toNat_lt_of_isDigit h, Char.isAlphanum, h]

theorem isBlank_of_isDigit {c : Char} (h : c.isDigit) :
  isBlank c = false
  := isBlank_of_isWord (isWord_of_isDigit h)

theorem toNat_lt_of_isIdentStart {c : Char} (h : isIdentStart c) :
  c.toNat < 128
  := by
  simp only [isIdentStart, Bool.or_eq_true, beq_iff_eq] at h
  rcases h with rfl | h
  · decide
  · delta Char.isAlpha Char.isUpper Char.isLower at h
    simp only [Bool.or_eq_true, Bool.and_eq_true, decide_eq_true_eq, ge_iff_le,
      UInt32.le_iff_toNat_le] at h
    simp only [Char.toNat]
    rcases h with ⟨-, h⟩ | ⟨-, h⟩
    · exact Nat.lt_of_le_of_lt h (by decide)
    · exact Nat.lt_of_le_of_lt h (by decide)

theorem isWord_of_isIdentStart {c : Char} (h : isIdentStart c) :
  isWord c
  := by
  have hascii := toNat_lt_of_isIdentStart h
  simp only [isIdentStart, Bool.or_eq_true] at h
  rcases h with h | h
  · simp [isWord, h]
  · simp [isWord, isAlphanumeric, hascii, Char.isAlphanum, h]

namespace Text

/-- Taking characters of a class off the front of a text stops where one of another class
follows. -/
theorem takeWhile_append_stop {p : Char → Bool} {rest : Text}
    (hrest : ∀ c ∈ rest.head?, p c = false) (t : Text) :
  (t ++ rest).takeWhile p = t.takeWhile p ∧ (t ++ rest).dropWhile p = t.dropWhile p ++ rest
  := by
  induction t with
  | nil =>
      cases rest with
      | nil => simp
      | cons c rest =>
          have hc : p c = false := hrest c rfl
          simp [hc]
  | cons c t ih =>
      by_cases hc : p c
      · simp [hc, ih]
      · simp [hc]

/-- A run of characters of a class ends at the first character of another class. -/
theorem takeWhile_append_all {p : Char → Bool} {word rest : Text} (hword : ∀ c ∈ word, p c)
    (hrest : ∀ c ∈ rest.head?, p c = false) :
  (word ++ rest).takeWhile p = word ∧ (word ++ rest).dropWhile p = rest
  := by
  obtain ⟨htake, hdrop⟩ := takeWhile_append_stop hrest word
  rw [htake, hdrop, List.takeWhile_eq_self_iff.mpr hword, List.dropWhile_eq_nil_iff.mpr hword]
  exact ⟨rfl, rfl⟩

theorem takeWhile_append_boundary {word rest : Text} (hword : ∀ c ∈ word, isWord c)
    (hrest : rest.startsWord = false) :
  (word ++ rest).takeWhile isWord = word ∧ (word ++ rest).dropWhile isWord = rest
  := by
  apply takeWhile_append_all hword
  intro c hc
  obtain ⟨rest, rfl⟩ := List.head?_eq_some_iff.mp hc
  exact hrest

theorem isWord_of_isIdent {name : Text} (h : isIdent name) :
  ∀ c ∈ name, isWord c
  := by
  cases name with
  | nil => contradiction
  | cons c t =>
      simp only [isIdent, Bool.and_eq_true, List.all_eq_true] at h
      intro d hd
      rcases List.mem_cons.mp hd with rfl | hd
      · apply isWord_of_isIdentStart h.1
      · apply h.2 d hd

theorem solid_of_isIdent {name : Text} (h : isIdent name) :
  ∀ c ∈ name, isBlank c = false
  := fun c hc => isBlank_of_isWord (isWord_of_isIdent h c hc)

theorem ne_nil_of_isIdent {name : Text} (h : isIdent name) :
  name ≠ []
  := by
  rintro rfl
  contradiction

/-- An identifier is taken whole off the front of a text in which no word character follows
it. -/
theorem takeIdent?_append {name : Text} (h : isIdent name) {rest : Text}
    (hrest : rest.startsWord = false) :
  takeIdent? (name ++ rest) = some (name, rest)
  := by
  cases name with
  | nil => contradiction
  | cons c t =>
      simp only [isIdent, Bool.and_eq_true, List.all_eq_true] at h
      obtain ⟨htake, hdrop⟩ := takeWhile_append_boundary h.2 hrest
      rw [List.cons_append, takeIdent?, if_pos h.1, htake, hdrop]

end Text

end ContractInterface
