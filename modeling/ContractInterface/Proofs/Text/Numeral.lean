import ContractInterface.Proofs.Text.Word
import ContractInterface.Text.Numeral
import Mathlib.Data.Nat.Digits.Defs
import Mathlib.Tactic.Ring

/-!
# Values of numerals

A run of digits denotes the sum of their values, each times its power of the base, so it denotes
less than the power that comes after all of its digits.  Numerals are read and written up to the
same number of digits: a number that has been read can be written.
-/

namespace ContractInterface

/-! ### Digits -/

theorem digitValue?_of_isDigit {c : Char} (h : c.isDigit) :
  digitValue? c = some (c.toNat - 48)
  := by
  rw [digitValue?, if_pos (toNat_lt_of_isDigit h), if_pos h]

theorem lt_ten_of_digitValue? {c : Char} {d : Nat} (h : digitValue? c = some d) :
  d < 10
  := by
  rw [digitValue?] at h
  split at h
  · split at h
    · rename_i hdigit
      obtain rfl := Option.some.inj h
      have hle : c.toNat ≤ 57 := (Char.isDigit_iff_toNat.mp hdigit).2
      omega
    · contradiction
  · obtain ⟨z, hz, rfl⟩ := Option.map_eq_some_iff.mp h
    have hc := Array.find?_some hz
    simp only [Bool.and_eq_true, decide_eq_true_eq] at hc
    omega

/-! ### Runs of digits -/

namespace Numeral

theorem ofDigits_eq (base : Nat) (digits : List Nat) :
  ofDigits base digits = Nat.ofDigits base digits.reverse
  := by
  have hfold (n : Nat) (ds : List Nat) : ds.foldl (fun n d => base * n + d) n =
      Nat.ofDigits base ds.reverse + base ^ ds.length * n := by
    induction ds generalizing n with
    | nil => simp
    | cons d ds ih =>
        rw [List.foldl_cons, ih, List.reverse_cons, Nat.ofDigits_append, List.length_reverse,
          List.length_cons, Nat.ofDigits_singleton]
        ring
  rw [ofDigits, hfold]
  simp

/-- A run of digits denotes the sum of their values, each times its power of the base. -/
theorem ofDigits_filterMap (base : Nat) {digit? : Char → Option Nat} {t : Text}
    {values : List Nat} (h : t.map digit? = values.map some) :
  ofDigits base (t.filterMap digit?) = Nat.ofDigits base values.reverse
  := by
  have hvalues : t.filterMap digit? = values := by
    simpa [List.filterMap_map] using congrArg (List.filterMap id) h
  rw [hvalues, ofDigits_eq]

theorem value_of_digits {t : Text} (h : ∀ c ∈ t, c.isDigit) :
  value t = Nat.ofDigitChars 10 t 0
  := by
  rw [value, ofDigits]
  generalize 0 = n
  induction t generalizing n with
  | nil => rfl
  | cons c t ih =>
      rw [List.filterMap_cons_some (digitValue?_of_isDigit (h c List.mem_cons_self)),
        List.foldl_cons, ih (fun d hd => h d (List.mem_cons_of_mem c hd)), Nat.ofDigitChars_cons]
      rfl

theorem value_lt (t : Text) :
  value t < 10 ^ t.length
  := by
  have hdigits : ∀ d ∈ (t.filterMap digitValue?).reverse, d < 10 := by
    intro d hd
    obtain ⟨c, -, hc⟩ := List.mem_filterMap.mp (List.mem_reverse.mp hd)
    exact lt_ten_of_digitValue? hc
  rw [value, ofDigits_eq]
  calc Nat.ofDigits 10 (t.filterMap digitValue?).reverse
    _ < 10 ^ (t.filterMap digitValue?).reverse.length :=
      Nat.ofDigits_lt_base_pow_length (by decide) hdigits
    _ = 10 ^ (t.filterMap digitValue?).length := by rw [List.length_reverse]
    _ ≤ 10 ^ t.length := Nat.pow_le_pow_right (by decide) (List.length_filterMap_le ..)

theorem isWritable_natCast_iff {n : Nat} :
  isWritable n ↔ n < 10 ^ digitLimit
  := by
  rw [isWritable, decide_eq_true_eq, Int.natAbs_natCast]
  generalize digitLimit = limit
  rfl

/-- A number that has been read can be written. -/
theorem isWritable_of_read {t : Text} {n : Nat} (h : read t = .ok n) :
  isWritable n
  := by
  rw [read] at h
  split at h
  · rename_i hlimit
    obtain rfl := Except.ok.inj h
    apply isWritable_natCast_iff.mpr
    calc value t
      _ < 10 ^ t.length := value_lt t
      _ ≤ 10 ^ digitLimit := Nat.pow_le_pow_right (by decide) hlimit
  · contradiction

/-- A sign does not matter to whether a number can be written. -/
theorem isWritable_signed (negative : Bool) (n : Int) :
  isWritable (if negative then -n else n) = isWritable n
  := by
  cases negative with
  | false => rfl
  | true => rw [if_pos rfl, isWritable, isWritable, Int.natAbs_neg]

end Numeral

end ContractInterface
