import ContractInterface.Expr.Postfix
import ContractInterface.Proofs.Expr.Token
import ContractInterface.Proofs.Text.Numeral

/-!
# The values of lengths

A length stands for an integer, which is its value unless it is negative.  A length of ASCII digits
has the value that its digits denote.  In general, a length that has a value consists of token
characters and blanks; if it has no parenthesis, its value does not change when the runs of blanks
in it are collapsed.
-/

namespace ContractInterface

namespace Expr

variable {known : Table Int} {t : Text}

/-- The integer that a length stands for, which may be negative. -/
def lengthValue (known : Table Int) (t : Text) : Except Numeral.Error (Option Int) :=
  if !(Text.trim t).isEmpty && (Text.trim t).all Char.isDigit then
    (some ∘ Int.ofNat) <$> Numeral.read (Text.trim t)
  else evaluate known (Text.trim t)

/-- A length is the integer that it stands for, and a negative one is none. -/
theorem resolveLength_eq_lengthValue :
  resolveLength known t = (fun value => value.bind Int.toNat?) <$> lengthValue known t
  := by
  rw [resolveLength, lengthValue]
  -- the check of the sign stands in both branches of the test for digits
  split
  · rcases Numeral.read (Text.trim t) with e | n
    · rfl
    · rfl
  · rcases evaluate known (Text.trim t) with e | _ | n | n
    · rfl
    · rfl
    · rfl
    · rfl

theorem resolveLength_eq_some_iff {n : Nat} :
  resolveLength known t = .ok (some n) ↔ lengthValue known t = .ok (some (n : Int))
  := by
  rw [resolveLength_eq_lengthValue, map_eq_ok_iff]
  constructor
  · rintro ⟨value, hvalue, h⟩
    obtain ⟨m, rfl, hm⟩ := Option.bind_eq_some_iff.mp h
    cases m with
    | ofNat m =>
        obtain rfl : m = n := Option.some.inj hm
        exact hvalue
    | negSucc m => cases hm
  · intro h
    exact ⟨some (n : Int), h, rfl⟩

/-- A length of digits has the value that they denote. -/
theorem resolveLength_of_digits (hne : t ≠ []) (h : ∀ c ∈ t, c.isDigit)
    (hlimit : t.length ≤ Numeral.digitLimit) :
  resolveLength known t = .ok (some (Nat.ofDigitChars 10 t 0))
  := by
  have htrim : Text.trim t = t := Text.trim_of_solid fun c hc => isBlank_of_isDigit (h c hc)
  have hdigits : (!t.isEmpty && t.all Char.isDigit) = true := by
    simpa [hne] using h
  rw [resolveLength, htrim, if_pos hdigits, Numeral.read, if_pos hlimit,
    Numeral.value_of_digits h]
  rfl

/-! ### Blanks -/

theorem evaluate_collapse (hslash : '/' ∉ t) (hparen : '(' ∉ t) :
  evaluate known (Text.collapse t) = evaluate known t
  := by
  rw [evaluate, Token.tokenize_collapse hslash hparen, evaluate]

/-- A length without comments and parentheses has the same value as its collapse. -/
theorem resolveLength_collapse (hslash : '/' ∉ t) (hparen : '(' ∉ t) :
  resolveLength known (Text.collapse t) = resolveLength known t
  := by
  have hslash : '/' ∉ Text.trim t := by rwa [Text.mem_trim rfl]
  have hparen : '(' ∉ Text.trim t := by rwa [Text.mem_trim rfl]
  rw [resolveLength, resolveLength, Text.trim_collapse, ← Text.collapse_trim]
  rcases Text.collapse_trim_cases t with heq | ⟨⟨c, hc, hblank⟩, hspace⟩
  · rw [heq]
  · -- Neither of the two texts is a run of digits.
    have hdigits : (Text.trim t).all Char.isDigit = false := by
      rw [List.all_eq_false]
      use c, hc
      intro hdigit
      simp [isBlank_of_isDigit hdigit] at hblank
    have hdigits' : (Text.collapse (Text.trim t)).all Char.isDigit = false := by
      rw [List.all_eq_false]
      use ' ', hspace
      decide
    simp only [hdigits, hdigits', Bool.and_false, Bool.false_eq_true, if_false,
      evaluate_collapse hslash hparen]

/-- A length without comments that has a value consists of token characters and blanks. -/
theorem isTokenChar_of_resolveLength (hslash : '/' ∉ t) {n : Nat}
    (h : resolveLength known t = .ok (some n)) :
  ∀ c ∈ t, isBlank c ∨ Token.isTokenChar c
  := by
  have hslash : '/' ∉ Text.trim t := by rwa [Text.mem_trim rfl]
  have htrim : ∀ c ∈ Text.trim t, isBlank c ∨ Token.isTokenChar c := by
    rw [resolveLength] at h
    split at h
    · rename_i hdigits
      simp only [Bool.and_eq_true, List.all_eq_true] at hdigits
      intro c hc
      right
      simp [Token.isTokenChar, isWord_of_isDigit (hdigits.2 c hc)]
    · obtain ⟨value, hvalue, h⟩ := bind_eq_ok_iff.mp h
      obtain ⟨tokens, htokens, hvalue⟩ := bind_eq_ok_iff.mp hvalue
      cases tokens with
      | none =>
          obtain rfl := Except.ok.inj hvalue
          simp [pure, Except.pure] at h
      | some tokens => apply Token.isTokenChar_of_tokenize hslash htokens
  intro c hc
  by_cases hblank : isBlank c
  · left
    exact hblank
  · apply htrim
    rwa [Text.mem_trim (by simpa using hblank)]

end Expr

end ContractInterface
