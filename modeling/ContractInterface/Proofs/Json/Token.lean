import ContractInterface.Json.Reader
import ContractInterface.Json.Writer
import ContractInterface.Proofs.Expr.Length
import Mathlib.Data.Nat.Digits.Defs

/-!
# Strings and integers in JSON texts

A character is written in one of four ways: by itself, by a letter after a backslash, as one
UTF-16 unit, or as a pair of units.  Whatever the way, the reader takes off the text what the
writer has put there, so a string is read as the text that was written.

An integer is written with decimal digits, and it is read as the same integer if it is short
enough, whatever can stand after a value.
-/

namespace ContractInterface.Json

/-! ### Units -/

theorem hexValue?_hexDigit :
  ∀ n < 16, hexValue? (Text.hexDigit n) = some n
  := by decide

theorem length_hexDigits (width n : Nat) :
  (Text.hexDigits width n).length = width
  := by
  induction width generalizing n with
  | zero => rfl
  | succ width ih => simp [Text.hexDigits, ih]

/-- The four digits of a UTF-16 unit are read as the unit, if something follows them. -/
theorem takeUnit?_hexDigits {n : Nat} (h : n < 0x10000) {t : Text} (ht : t ≠ []) :
  takeUnit? (Text.hexDigits 4 n ++ t) = some (n, t)
  := by
  obtain ⟨c, t, rfl⟩ := List.exists_cons_of_ne_nil ht
  have hdigit m : hexValue? (Text.hexDigit (m % 16)) = some (m % 16) :=
    hexValue?_hexDigit _ (Nat.mod_lt _ (by decide))
  have hvalue : Numeral.ofDigits 16
      [n / 16 / 16 / 16 % 16, n / 16 / 16 % 16, n / 16 % 16, n % 16] = n := by
    simp only [Numeral.ofDigits, List.foldl_cons, List.foldl_nil]
    omega
  simp only [Text.hexDigits, List.nil_append, List.cons_append, takeUnit?, isHex,
    Numeral.hexValue, hdigit, hvalue, Option.isSome_some, Bool.and_self, if_true,
    List.filterMap_cons, List.filterMap_nil]

/-! ### Code points -/

/-- A code point in front of others that are taken off a text. -/
def withPoint (p : CodePoint) (x : Except Fault (List CodePoint × Text)) :
    Except Fault (List CodePoint × Text) := do
  let (ps, rest) ← x
  return (p :: ps, rest)

section Points

variable (opened : Text) {t : Text}

theorem takePoints_skip (front t : Text) :
  takePoints opened front.length (front ++ t) = takePoints opened 0 t
  := by
  induction front with
  | nil => rfl
  | cons c front ih => simpa [takePoints] using ih

theorem takePoints_plain {c : Char} (hquote : c ≠ '"') (hslash : c ≠ '\\') (hc : 32 ≤ c.toNat) :
  takePoints opened 0 (c :: t) = withPoint (.char c) (takePoints opened 0 t)
  := by
  rw [takePoints, if_neg (by omega)]
  · rfl
  · exact hquote
  · exact fun h _ => hslash h
  · exact fun _ h _ => hslash h
  · exact fun _ _ h _ => hslash h

theorem takePoints_simple {c d : Char} (h : simpleEscape? c = some d) :
  takePoints opened 0 ('\\' :: c :: t) = withPoint (.char d) (takePoints opened 0 t)
  := by
  rw [takePoints]
  · rw [h]
    rfl
  · rintro rfl
    contradiction

/-- A unit that is no half of a pair is read as a character. -/
theorem takePoints_unit {n : Nat} (h : n < 0x10000) (hhigh : isHighUnit n = false)
    (hlow : isLowUnit n = false) (ht : t ≠ []) :
  takePoints opened 0 (escapeUnit n ++ t) =
    withPoint (.char (Char.ofNat n)) (takePoints opened 0 t)
  := by
  have hpoint : unitPoint n = .char (Char.ofNat n) := by
    simp [unitPoint, hhigh, hlow]
  have hskip := takePoints_skip opened (Text.hexDigits 4 n) t
  rw [length_hexDigits] at hskip
  rw [escapeUnit, List.cons_append, List.cons_append, takePoints, takeUnit?_hexDigits h ht]
  simp only [hhigh, hpoint, hskip]
  rfl

/-- A pair of units is read as one character. -/
theorem takePoints_pair {high low : Nat} (hhigh : isHighUnit high) (hlow : isLowUnit low)
    (ht : t ≠ []) :
  takePoints opened 0 (escapeUnit high ++ escapeUnit low ++ t) =
    withPoint (.char (joinUnits high low)) (takePoints opened 0 t)
  := by
  have hhigh' : high < 0x10000 := by
    simp only [isHighUnit, Bool.and_eq_true, decide_eq_true_eq] at hhigh
    omega
  have hlow' : low < 0x10000 := by
    simp only [isLowUnit, Bool.and_eq_true, decide_eq_true_eq] at hlow
    omega
  have hunit := takeUnit?_hexDigits hhigh' (t := escapeUnit low ++ t) (by simp [escapeUnit])
  have hunit' := takeUnit?_hexDigits hlow' ht
  -- the digits of the first unit and the whole second one are passed over
  have hskip := takePoints_skip opened (Text.hexDigits 4 high ++ escapeUnit low) t
  have hlength : (Text.hexDigits 4 high ++ escapeUnit low).length = 10 := by
    simp [escapeUnit, length_hexDigits]
  rw [hlength] at hskip
  simp only [escapeUnit, List.cons_append, List.append_assoc] at hunit hskip ⊢
  rw [takePoints, hunit]
  simp only [hhigh, hunit', hlow, if_true, hskip]
  rfl

/-- The code point of a character is not that of a half of a pair. -/
theorem toNat_cases (c : Char) :
  c.toNat < 0xd800 ∨ 0xe000 ≤ c.toNat ∧ c.toNat < 0x110000
  := by
  rcases c.valid with h | ⟨h, h'⟩
  · left
    exact h
  · right
    exact ⟨h, h'⟩

/-- The ways in which a character is written. -/
theorem escapeChar_cases (c : Char) :
  (∃ d, simpleEscape? d = some c ∧ escapeChar c = ['\\', d]) ∨
  (c ≠ '"' ∧ c ≠ '\\' ∧ 32 ≤ c.toNat ∧ escapeChar c = [c]) ∨
  (c.toNat < 0x10000 ∧ escapeChar c = escapeUnit c.toNat) ∨
  (0x10000 ≤ c.toNat ∧ escapeChar c =
    escapeUnit (0xd800 + (c.toNat - 0x10000) / 0x400) ++
      escapeUnit (0xdc00 + (c.toNat - 0x10000) % 0x400))
  := by
  have hofNat {n : Nat} (h : c.toNat = n) : c = Char.ofNat n := by
    rw [← h, Char.ofNat_toNat]
  generalize h : escapeChar c = t
  rw [escapeChar] at h
  split at h
  · rename_i hc
    exact .inl ⟨'"', by rw [hc]; rfl, h.symm⟩
  rename_i hquote
  split at h
  · rename_i hc
    exact .inl ⟨'\\', by rw [hc]; rfl, h.symm⟩
  rename_i hslash
  split at h
  · rename_i hc
    exact .inl ⟨'n', by rw [hc]; rfl, h.symm⟩
  split at h
  · rename_i hc
    exact .inl ⟨'r', by rw [hc]; rfl, h.symm⟩
  split at h
  · rename_i hc
    exact .inl ⟨'t', by rw [hc]; rfl, h.symm⟩
  split at h
  · rename_i hc
    exact .inl ⟨'b', by rw [hofNat hc]; rfl, h.symm⟩
  split at h
  · rename_i hc
    exact .inl ⟨'f', by rw [hofNat hc]; rfl, h.symm⟩
  split at h
  · rename_i hc
    simp only [Bool.and_eq_true, decide_eq_true_eq] at hc
    exact .inr (.inl ⟨hquote, hslash, hc.1, h.symm⟩)
  split at h
  · rename_i hc
    exact .inr (.inr (.inl ⟨hc, h.symm⟩))
  · rename_i hc
    exact .inr (.inr (.inr ⟨by omega, h.symm⟩))

/-- A character is read from the way in which it is written. -/
theorem takePoints_escapeChar (c : Char) (ht : t ≠ []) :
  takePoints opened 0 (escapeChar c ++ t) = withPoint (.char c) (takePoints opened 0 t)
  := by
  have hvalid := toNat_cases c
  rcases escapeChar_cases c with ⟨d, hd, h⟩ | ⟨hquote, hslash, hc, h⟩ | ⟨hc, h⟩ | ⟨hc, h⟩
  · rw [h]
    apply takePoints_simple opened hd
  · rw [h]
    apply takePoints_plain opened hquote hslash hc
  · have hhigh : isHighUnit c.toNat = false := by
      simp only [isHighUnit, Bool.and_eq_false_iff, decide_eq_false_iff_not]
      omega
    have hlow : isLowUnit c.toNat = false := by
      simp only [isLowUnit, Bool.and_eq_false_iff, decide_eq_false_iff_not]
      omega
    rw [h, takePoints_unit opened hc hhigh hlow ht, Char.ofNat_toNat]
  · have hhigh : isHighUnit (0xd800 + (c.toNat - 0x10000) / 0x400) := by
      simp only [isHighUnit, Bool.and_eq_true, decide_eq_true_eq]
      omega
    have hlow : isLowUnit (0xdc00 + (c.toNat - 0x10000) % 0x400) := by
      simp only [isLowUnit, Bool.and_eq_true, decide_eq_true_eq]
      omega
    have hjoin : joinUnits (0xd800 + (c.toNat - 0x10000) / 0x400)
        (0xdc00 + (c.toNat - 0x10000) % 0x400) = c := by
      rw [joinUnits]
      convert Char.ofNat_toNat c using 2
      omega
    rw [h, takePoints_pair opened hhigh hlow ht, hjoin]

theorem takePoints_text (cs rest : Text) :
  takePoints opened 0 (cs.flatMap escapeChar ++ '"' :: rest) = .ok (cs.map .char, rest)
  := by
  induction cs with
  | nil => rfl
  | cons c cs ih =>
      rw [List.flatMap_cons, List.append_assoc, takePoints_escapeChar opened c (by simp), ih]
      rfl

end Points

/-- A text is read from the string in which it is written. -/
theorem takeString_writeString (s : String) (rest : Text) :
  ∃ t, writeString (.text s) ++ rest = '"' :: t ∧ takeString t = .ok (.text s, rest)
  := by
  use s.toList.flatMap escapeChar ++ '"' :: rest
  constructor
  · simp [writeString, JsonString.points, List.flatMap_map, escapePoint]
  · rw [takeString, takePoints_text]
    simp [bind, Except.bind, pure, Except.pure]

/-! ### Integers -/

/-- What can stand after a value in a text that is written line by line. -/
def EndsValue (rest : Text) : Prop :=
  ∃ c t, rest = c :: t ∧ (c = ',' ∨ c = '\n')

theorem isDigit_of_mem_toDigits {n : Nat} {c : Char} (h : c ∈ Nat.toDigits 10 n) :
  c.isDigit
  := Nat.isDigit_of_mem_toDigits (by decide) (by decide) h

theorem head?_toDigits {n : Nat} (h : n ≠ 0) :
  (Nat.toDigits 10 n).head? ≠ some '0'
  := by
  have hdigit : ∀ n < 10, n ≠ 0 → n.digitChar ≠ '0' := by decide
  induction n using Nat.strongRecOn with
  | ind n ih =>
      by_cases hn : n < 10
      · rw [Nat.toDigits_of_lt_base hn, List.head?_singleton]
        simpa using hdigit n hn h
      · rw [Nat.toDigits_of_base_le (by decide) (by omega),
          List.head?_append_of_ne_nil _ Nat.toDigits_ne_nil]
        apply ih
        · omega
        · omega

theorem takeWhole?_toDigits (n : Nat) {rest : Text} (hrest : ∀ c ∈ rest.head?, c.isDigit = false) :
  takeWhole? (Nat.toDigits 10 n ++ rest) = some (Nat.toDigits 10 n, rest)
  := by
  by_cases hn : n = 0
  · rw [hn, Nat.toDigits_zero]
    rfl
  · have hdigits : ∀ c ∈ Nat.toDigits 10 n, c.isDigit := fun c => isDigit_of_mem_toDigits
    obtain ⟨htake, hdrop⟩ := Text.takeWhile_append_all hdigits hrest
    rw [takeWhole?, htake, hdrop]
    · simp [Nat.toDigits_ne_nil]
    · intro t ht
      apply head?_toDigits hn
      rw [← List.head?_append_of_ne_nil _ Nat.toDigits_ne_nil, ht]
      rfl

theorem length_toDigits_le {n e : Nat} (he : 0 < e) (h : n < Nat.pow 10 e) :
  (Nat.toDigits 10 n).length ≤ e
  := Nat.toDigits_length 10 n e he h

theorem read_toDigits {n : Nat} (h : Numeral.isWritable n) :
  Numeral.read (Nat.toDigits 10 n) = .ok n
  := by
  have hlength : (Nat.toDigits 10 n).length ≤ Numeral.digitLimit := by
    rw [Numeral.isWritable, decide_eq_true_eq, Int.natAbs_natCast] at h
    apply length_toDigits_le (by decide) h
  have hvalue : Numeral.value (Nat.toDigits 10 n) = n := by
    rw [Numeral.value_of_digits fun c => isDigit_of_mem_toDigits, Nat.ofDigitChars_ten_toDigits]
  rw [Numeral.read, if_pos hlength, hvalue]

theorem exists_toDigits_eq_cons (n : Nat) :
  ∃ c t, Nat.toDigits 10 n = c :: t ∧ c.isDigit
  := by
  obtain ⟨c, t, ht⟩ := List.exists_cons_of_ne_nil (@Nat.toDigits_ne_nil n 10)
  refine ⟨c, t, ht, ?_⟩
  apply @isDigit_of_mem_toDigits n
  rw [ht]
  apply List.mem_cons_self

/-- The first character of an integer. -/
theorem exists_ofInt_eq_cons (n : Int) :
  ∃ c t, Numeral.ofInt n = c :: t ∧ (c.isDigit ∨ c ∈ ['-'])
  := by
  cases n with
  | ofNat n =>
      obtain ⟨c, t, ht, hc⟩ := exists_toDigits_eq_cons n
      exact ⟨c, t, ht, .inl hc⟩
  | negSucc n => exact ⟨'-', _, rfl, .inr List.mem_cons_self⟩

/-- An integer is read from its decimal digits. -/
theorem takeNumber?_ofInt {n : Int} (h : Numeral.isWritable n) {rest : Text}
    (hrest : EndsValue rest) :
  takeNumber? (Numeral.ofInt n ++ rest) = .ok (some (.int n, rest))
  := by
  obtain ⟨hdigit, hfraction, hexponent⟩ : (∀ c ∈ rest.head?, c.isDigit = false) ∧
      takeFraction? rest = none ∧ takeExponent? rest = none := by
    obtain ⟨c, t, rfl, rfl | rfl⟩ := hrest
    · exact ⟨by rintro _ ⟨⟩; rfl, rfl, rfl⟩
    · exact ⟨by rintro _ ⟨⟩; rfl, rfl, rfl⟩
  cases n with
  | ofNat n =>
      rw [Numeral.ofInt, takeNumber?]
      · simp only [takeWhole?_toDigits n hdigit, hfraction, hexponent, read_toDigits h]
        rfl
      · -- digits do not start with a minus sign
        intro t ht
        have hminus : '-' ∈ Nat.toDigits 10 n := by
          apply List.mem_of_mem_head?
          rw [← List.head?_append_of_ne_nil _ Nat.toDigits_ne_nil, ht]
          rfl
        exact absurd (isDigit_of_mem_toDigits hminus) (by decide)
  | negSucc n =>
      simp only [Numeral.ofInt, takeNumber?, List.cons_append, takeWhole?_toDigits (n + 1) hdigit,
        hfraction, hexponent]
      rw [@read_toDigits (n + 1) h]
      rfl

/-- A character that is a digit or one of a few marks is no other character. -/
theorem ne_of_digit_or_mark {marks : List Char} {c d : Char} (hc : c.isDigit ∨ c ∈ marks)
    (hdigit : d.isDigit = false) (hmark : d ∉ marks) :
  d ≠ c
  := by
  rintro rfl
  rcases hc with hc | hc
  · rw [hdigit] at hc
    contradiction
  · contradiction

/-- No word that denotes a value stands at the front of an integer. -/
theorem findSome?_literals_ofInt (n : Int) (rest : Text) :
  (literals.findSome? fun (word, v) =>
    (Text.dropPrefix? word (Numeral.ofInt n ++ rest)).map fun rest => (v, rest)) = none
  := by
  cases n with
  | ofNat n =>
      obtain ⟨c, t, ht, hc⟩ := exists_toDigits_eq_cons n
      have hne (d : Char) (hdigit : d.isDigit = false) : d ≠ c :=
        ne_of_digit_or_mark (.inl hc) hdigit List.not_mem_nil
      simp [Numeral.ofInt, ht, literals, Text.dropPrefix?, hne 'n' rfl, hne 't' rfl, hne 'f' rfl,
        hne 'N' rfl, hne 'I' rfl, hne '-' rfl]
  | negSucc n =>
      obtain ⟨c, t, ht, hc⟩ := exists_toDigits_eq_cons (n + 1)
      have hne : 'I' ≠ c := ne_of_digit_or_mark (.inl hc) rfl List.not_mem_nil
      simp [Numeral.ofInt, ht, literals, Text.dropPrefix?, hne]

theorem ofInt_append_ne {c : Char} (hdigit : c.isDigit = false) (hminus : c ∉ ['-']) (n : Int)
    (rest t : Text) :
  Numeral.ofInt n ++ rest ≠ c :: t
  := by
  obtain ⟨d, t', ht, hd⟩ := exists_ofInt_eq_cons n
  rw [ht, List.cons_append]
  intro heq
  apply ne_of_digit_or_mark hd hdigit hminus (List.cons.inj heq).1.symm

/-- An integer is read as a value. -/
theorem takeValue_ofInt {n : Int} (h : Numeral.isWritable n) {rest : Text}
    (hrest : EndsValue rest) (fuel : Nat) :
  takeValue (fuel + 1) (Numeral.ofInt n ++ rest) = .ok (.int n, rest)
  := by
  rw [takeValue, takeAtom, findSome?_literals_ofInt, takeNumber?_ofInt h hrest]
  · rfl
  · apply ofInt_append_ne rfl (by decide)
  · apply ofInt_append_ne rfl (by decide)
  · apply ofInt_append_ne rfl (by decide)

end ContractInterface.Json
