import ContractInterface.Proofs.Expr.Conversion
import ContractInterface.Proofs.Header.Occurrence
import ContractInterface.Proofs.Text.Numeral

/-!
# Texts of expressions

An expression is written by spelling its tokens one after the other, with any blanks between
them.  Since operands do not follow each other directly, a literal or a name ends where the next
token starts also if no blank stands there, and no name stands before an opening parenthesis.  So
the tokens are read back, and the text has the value of the tree.
-/

namespace ContractInterface

/-! ### Digits and words -/

theorem isWord_of_isDecimal {c : Char} (h : isDecimal c) :
  isWord c
  := by
  have hzeros : ∀ z ∈ decimalZeros.toList, 128 ≤ z ∧
      alphanumericRanges.toList.any (fun range => range.1 ≤ z && z + 9 ≤ range.2) := by
    decide +kernel
  rw [isDecimal, digitValue?] at h
  split at h
  · apply isWord_of_isDigit
    by_contra hdigit
    simp [hdigit] at h
  · rename_i hascii
    rw [Option.isSome_map, Array.find?_isSome] at h
    obtain ⟨z, hz, hc⟩ := h
    simp only [Bool.and_eq_true, decide_eq_true_eq] at hc
    obtain ⟨-, hrange⟩ := hzeros z (Array.mem_toList_iff.mpr hz)
    obtain ⟨range, hmem, hin⟩ := List.any_eq_true.mp hrange
    simp only [Bool.and_eq_true, decide_eq_true_eq] at hin
    have hany : alphanumericRanges.toList.any (fun r => r.1 ≤ c.toNat && c.toNat ≤ r.2) := by
      rw [List.any_eq_true]
      refine ⟨range, hmem, ?_⟩
      simp only [Bool.and_eq_true, decide_eq_true_eq]
      omega
    rw [isWord, isAlphanumeric, if_neg hascii, inRanges, ← Array.any_toList, hany, Bool.or_true]

theorem isWord_of_isHex {c : Char} (h : isHex c) :
  isWord c
  := by
  have hascii : c.toNat < 128 := by
    have hle : ∀ d : Char, d.toNat < 128 → c ≤ d → c.toNat < 128 :=
      fun d hd hcd => Nat.lt_of_le_of_lt hcd hd
    simp only [isHex, hexValue?, Bool.and_eq_true, decide_eq_true_eq] at h
    split_ifs at h with hdigit hlower hupper
    · exact hle '9' (by decide) hdigit.2
    · exact hle 'f' (by decide) hlower.2
    · exact hle 'F' (by decide) hupper.2
    · contradiction
  have hall : ∀ n < 128, isHex (Char.ofNat n) → isWord (Char.ofNat n) := by
    decide
  simpa [h] using hall c.toNat hascii

theorem isDecimal_of_isIdentStart {c : Char} (h : isIdentStart c) :
  isDecimal c = false
  := by
  have hall : ∀ n < 128, isIdentStart (Char.ofNat n) → isDecimal (Char.ofNat n) = false := by
    decide
  simpa [h] using hall c.toNat (toNat_lt_of_isIdentStart h)

namespace Expr

open Text

/-! ### Spellings of tokens -/

/-- A text spells a token: a literal, which may have any of the endings, spells the number with
its digits, and a decimal one is not too long. -/
inductive Spells : Token → Text → Prop
  | decimal {digits : Text} {values : List Nat} {suffix : String} (hne : digits ≠ [])
      (hvalues : digits.map digitValue? = values.map some)
      (hlimit : digits.length ≤ Numeral.digitLimit) (hsuffix : suffix ∈ Token.literalSuffixes) :
      Spells (.number (Nat.ofDigits 10 values.reverse)) (digits ++ suffix.toList)
  | hexadecimal {x : Char} {digits : Text} {values : List Nat} {suffix : String}
      (hx : x = 'x' ∨ x = 'X') (hne : digits ≠ [])
      (hvalues : digits.map hexValue? = values.map some)
      (hsuffix : suffix ∈ Token.literalSuffixes) :
      Spells (.number (Nat.ofDigits 16 values.reverse)) ('0' :: x :: (digits ++ suffix.toList))
  | name {name : Text} (h : isIdent name) : Spells (.ident (String.ofList name)) name
  | op (o : Op) : Spells (.op o) [o.sign]
  | openParen : Spells .openParen ['(']
  | closeParen : Spells .closeParen [')']

theorem isSome_of_map_eq {digit? : Char → Option Nat} {t : Text} {values : List Nat}
    (h : t.map digit? = values.map some) :
  ∀ c ∈ t, (digit? c).isSome
  := by
  intro c hc
  have hmem : digit? c ∈ values.map some := h ▸ List.mem_map_of_mem hc
  obtain ⟨value, -, hvalue⟩ := List.mem_map.mp hmem
  rw [← hvalue, Option.isSome_some]

/-- The endings of literals are made of letters that are no digits and do not introduce
hexadecimal ones. -/
theorem of_mem_literalSuffixes {suffix : String} (h : suffix ∈ Token.literalSuffixes) {c : Char}
    (hc : c ∈ suffix.toList) :
  isWord c ∧ isDecimal c = false ∧ isHex c = false ∧ c ≠ 'x' ∧ c ≠ 'X'
  := by
  have hall : (Token.literalSuffixes.all fun suffix => suffix.toList.all fun c =>
      decide (isWord c ∧ isDecimal c = false ∧ isHex c = false ∧ c ≠ 'x' ∧ c ≠ 'X')) = true := by
    decide +kernel
  exact of_decide_eq_true (List.all_eq_true.mp (List.all_eq_true.mp hall suffix h) c hc)

/-- Literals and names are words. -/
theorem Spells.isWord {token : Token} {w : Text} (h : Spells token w) (htoken : token.isOperand) :
  ∀ c ∈ w, isWord c
  := by
  cases h with
  | decimal hne hvalues hlimit hsuffix =>
      intro c hc
      rcases List.mem_append.mp hc with hc | hc
      · exact isWord_of_isDecimal (isSome_of_map_eq hvalues c hc)
      · exact (of_mem_literalSuffixes hsuffix hc).1
  | hexadecimal hx hne hvalues hsuffix =>
      intro c hc
      simp only [List.mem_cons, List.mem_append] at hc
      rcases hc with rfl | rfl | hc | hc
      · decide
      · rcases hx with rfl | rfl
        · decide
        · decide
      · exact isWord_of_isHex (isSome_of_map_eq hvalues c hc)
      · exact (of_mem_literalSuffixes hsuffix hc).1
  | name h => exact isWord_of_isIdent h
  | op o => contradiction
  | openParen => contradiction
  | closeParen => contradiction

/-- Whether a character is an operator or a parenthesis. -/
def isMark (c : Char) : Bool :=
  c == '(' || c == ')' || (Op.ofSign? c).isSome

/-- No mark is blank or part of a word. -/
theorem of_isMark {c : Char} (h : isMark c) :
  isBlank c = false ∧ isWord c = false
  := by
  simp only [isMark, Bool.or_eq_true, beq_iff_eq] at h
  rcases h with (rfl | rfl) | h
  · decide
  · decide
  · revert h
    fun_cases Op.ofSign? c with
    | case1 => decide
    | case2 => decide
    | case3 => decide
    | case4 => simp

/-- All other tokens are marks. -/
theorem Spells.exists_mark {token : Token} {w : Text} (h : Spells token w)
    (htoken : token.isOperand = false) :
  ∃ c, w = [c] ∧ isMark c
  := by
  cases h with
  | decimal => contradiction
  | hexadecimal => contradiction
  | name => contradiction
  | op o => exact ⟨o.sign, rfl, by cases o <;> rfl⟩
  | openParen => exact ⟨'(', rfl, rfl⟩
  | closeParen => exact ⟨')', rfl, rfl⟩

/-! ### Tokens are read back -/

/-- A text whose second character does not introduce hexadecimal digits has none. -/
theorem takeHex?_eq_none {c : Char} {t : Text}
    (h : ∀ x ∈ t.head?, (x == 'x' || x == 'X') = false) :
  Token.takeHex? (c :: t) = none
  := by
  cases t with
  | nil => simp [Token.takeHex?]
  | cons x t =>
      have hx := h x rfl
      by_cases hc : c = '0'
      · simp [Token.takeHex?, hc, hx]
      · simp [Token.takeHex?, hc]

section Word

variable {rest : Text} (hrest : ∀ c ∈ rest.head?, ContractInterface.isWord c = false)

include hrest

theorem afterSuffix?_suffix {suffix : String} (hsuffix : suffix ∈ Token.literalSuffixes) :
  Token.afterSuffix? (suffix.toList ++ rest) = some rest
  := by
  obtain ⟨htake, hdrop⟩ :=
    takeWhile_append_all (fun c hc => (of_mem_literalSuffixes hsuffix hc).1) hrest
  rw [Token.afterSuffix?, htake, hdrop, String.ofList_toList, if_pos]
  simpa using hsuffix

/-- No character of a class of word characters follows a literal directly, and neither is one in
its ending. -/
theorem head?_suffix {p : Char → Bool} {suffix : String}
    (hsuffix : ∀ c ∈ suffix.toList, p c = false)
    (hp : ∀ c, p c → ContractInterface.isWord c) :
  ∀ c ∈ (suffix.toList ++ rest).head?, p c = false
  := by
  intro c hc
  rw [List.head?_append, Option.mem_def, Option.or_eq_some_iff] at hc
  rcases hc with hc | ⟨-, hc⟩
  · exact hsuffix c (List.mem_of_mem_head? hc)
  · rw [← Bool.not_eq_true]
    intro hpc
    have hword := hp c hpc
    rw [hrest c hc] at hword
    contradiction

/-- A decimal literal is read as the number with its digits, or it is refused as that number is. -/
theorem takeNumber?_decimal {digits : Text} {suffix : String} (hne : digits ≠ [])
    (hdigits : ∀ c ∈ digits, isDecimal c) (hsuffix : suffix ∈ Token.literalSuffixes) :
  Token.takeNumber? (digits ++ suffix.toList ++ rest) =
    (fun value => some (value, rest)) <$> Numeral.read digits
  := by
  have hending := fun {c} => of_mem_literalSuffixes (c := c) hsuffix
  obtain ⟨htake, hdrop⟩ := takeWhile_append_all hdigits
    (head?_suffix hrest (fun c hc => (hending hc).2.1) fun c => isWord_of_isDecimal)
  have hhex : Token.takeHex? (digits ++ (suffix.toList ++ rest)) = none := by
    obtain ⟨d, digits, rfl⟩ := List.exists_cons_of_ne_nil hne
    apply takeHex?_eq_none
    cases digits with
    | nil =>
        apply head?_suffix hrest
        · intro c hc
          simp [(hending hc).2.2.2]
        · intro c hc
          simp only [Bool.or_eq_true, beq_iff_eq] at hc
          rcases hc with rfl | rfl
          · decide
          · decide
    | cons d' digits =>
        rintro c ⟨⟩
        have hdecimal := hdigits d' (by simp)
        rw [← Bool.not_eq_true]
        intro hx
        simp only [Bool.or_eq_true, beq_iff_eq] at hx
        rcases hx with rfl | rfl
        · contradiction
        · contradiction
  rw [List.append_assoc, Token.takeNumber?, hhex]
  simp only [htake, hdrop, afterSuffix?_suffix hrest hsuffix]
  exact (map_eq_pure_bind _ _).symm

theorem takeNumber?_hexadecimal {x : Char} {digits : Text} {suffix : String}
    (hx : x = 'x' ∨ x = 'X') (hne : digits ≠ []) (hdigits : ∀ c ∈ digits, isHex c)
    (hsuffix : suffix ∈ Token.literalSuffixes) :
  Token.takeNumber? ('0' :: x :: (digits ++ suffix.toList) ++ rest) =
    .ok (some (Numeral.hexValue digits, rest))
  := by
  obtain ⟨htake, hdrop⟩ := takeWhile_append_all hdigits
    (head?_suffix hrest (fun c hc => (of_mem_literalSuffixes hsuffix hc).2.2.1)
      fun c => isWord_of_isHex)
  have hhex : Token.takeHex? ('0' :: x :: (digits ++ (suffix.toList ++ rest))) =
      some (digits, suffix.toList ++ rest) := by
    have hintroduced : ((x == 'x' || x == 'X') && !digits.isEmpty) = true := by
      simpa [hne] using hx
    rw [Token.takeHex?, htake, hdrop, if_pos hintroduced]
  rw [List.cons_append, List.cons_append, List.append_assoc, Token.takeNumber?, hhex]
  simp only [afterSuffix?_suffix hrest hsuffix]
  rfl

end Word

/-- A token is taken off the front of a text.  What follows a literal or a name must not go on
with a word character. -/
theorem Spells.take? {token : Token} {w rest : Text} (h : Spells token w)
    (hrest : token.isOperand → ∀ c ∈ rest.head?, ContractInterface.isWord c = false) :
  Token.take? (w ++ rest) = .ok (some (token, rest))
  := by
  cases h with
  | @decimal digits values suffix hne hvalues hlimit hsuffix =>
      have hdigits : ∀ c ∈ digits, isDecimal c := isSome_of_map_eq hvalues
      have hnumber := takeNumber?_decimal (hrest rfl) hne hdigits hsuffix
      rw [Numeral.read, if_pos hlimit, Numeral.value, Numeral.ofDigits_filterMap 10 hvalues,
        Except.map_ok] at hnumber
      obtain ⟨d, digits, rfl⟩ := List.exists_cons_of_ne_nil hne
      rw [List.cons_append, List.cons_append] at hnumber ⊢
      rw [Token.take?, if_pos (hdigits d List.mem_cons_self), hnumber]
      rfl
  | hexadecimal hx hne hvalues hsuffix =>
      have hnumber :=
        takeNumber?_hexadecimal (hrest rfl) hx hne (isSome_of_map_eq hvalues) hsuffix
      rw [Numeral.hexValue, Numeral.ofDigits_filterMap 16 hvalues] at hnumber
      rw [List.cons_append] at hnumber ⊢
      rw [Token.take?, if_pos (by decide), hnumber]
      rfl
  | name h =>
      have hident := takeIdent?_append h (startsWord_eq_false (hrest rfl))
      cases w with
      | nil => contradiction
      | cons c w =>
          simp only [isIdent, Bool.and_eq_true] at h
          have hmark : isMark c = false := by
            rw [← Bool.not_eq_true]
            intro hmark
            have hword := isWord_of_isIdentStart h.1
            rw [(of_isMark hmark).2] at hword
            contradiction
          simp only [isMark, Bool.or_eq_false_iff, beq_eq_false_iff_ne, Option.isSome_eq_false_iff,
            Option.isNone_iff_eq_none] at hmark
          rw [List.cons_append] at hident ⊢
          rw [Token.take?, isDecimal_of_isIdentStart h.1, if_neg Bool.false_ne_true,
            if_neg hmark.1.1, if_neg hmark.1.2, hmark.2, hident]
          rfl
  | op o => cases o <;> rfl
  | openParen => rfl
  | closeParen => rfl

/-! ### Spellings one after the other -/

/-- A text writes tokens: their spellings stand in it in order, with blanks before, between and
after them. -/
inductive Writes : List Token → Text → Prop
  | nil {blanks : Text} (hblanks : Blanks blanks) : Writes [] blanks
  | cons {blanks w rest : Text} {token : Token} {tokens : List Token} (hblanks : Blanks blanks)
      (htoken : Spells token w) (hrest : Writes tokens rest) :
      Writes (token :: tokens) (blanks ++ (w ++ rest))

theorem lexFrom_blanks {blanks : Text} (h : Blanks blanks) (t : Text) :
  Token.lexFrom 0 (blanks ++ t) = Token.lexFrom 0 t
  := by
  induction blanks with
  | nil => rfl
  | cons c blanks ih =>
      rw [List.cons_append, Token.lexFrom_cons_blank (h c List.mem_cons_self),
        ih fun d hd => h d (List.mem_cons_of_mem c hd)]

theorem lexFrom_skip (front rest : Text) :
  Token.lexFrom front.length (front ++ rest) = Token.lexFrom 0 rest
  := by
  induction front with
  | nil => rfl
  | cons c front ih => rw [List.length_cons, List.cons_append, Token.lexFrom, ih]

theorem Spells.ne_nil {token : Token} {w : Text} (h : Spells token w) :
  w ≠ []
  := by
  cases h with
  | decimal hne => exact List.append_ne_nil_of_left_ne_nil hne _
  | hexadecimal => simp
  | name h => exact ne_nil_of_isIdent h
  | op o => simp
  | openParen => simp
  | closeParen => simp

/-- The first character of a token is not blank. -/
theorem Spells.exists_cons {token : Token} {w : Text} (h : Spells token w) :
  ∃ c t, w = c :: t ∧ isBlank c = false
  := by
  obtain ⟨c, t, rfl⟩ := List.exists_cons_of_ne_nil h.ne_nil
  refine ⟨c, t, rfl, ?_⟩
  cases htoken : token.isOperand with
  | true => exact isBlank_of_isWord (h.isWord htoken c List.mem_cons_self)
  | false =>
      obtain ⟨d, heq, hd⟩ := h.exists_mark htoken
      obtain ⟨rfl, -⟩ := List.cons.inj heq
      exact (of_isMark hd).1

theorem Spells.lexFrom {token : Token} {w rest : Text} (h : Spells token w)
    (hrest : token.isOperand → ∀ c ∈ rest.head?, ContractInterface.isWord c = false) :
  Token.lexFrom 0 (w ++ rest) =
    (Token.lexFrom 0 rest).map (Option.map (token :: ·))
  := by
  have htake := h.take? hrest
  obtain ⟨c, t, rfl, hc⟩ := h.exists_cons
  have hskip : (t ++ rest).length - rest.length = t.length := by simp
  rw [List.cons_append] at htake ⊢
  rw [Token.lexFrom, hc, if_neg Bool.false_ne_true, htake]
  simp only [bind, Except.bind, hskip, lexFrom_skip]
  cases Token.lexFrom 0 rest with
  | error e => rfl
  | ok tokens => rfl

/-- After an operand comes neither a word character nor an opening parenthesis. -/
theorem Writes.follows {tokens : List Token} {t : Text} (h : Writes tokens t)
    (hhead : ∀ token ∈ tokens.head?, token.startsOperand = false) :
  (∀ c ∈ t.head?, isWord c = false) ∧ hasPrefix ['('] (trimLeft t) = false
  := by
  cases h with
  | nil hblanks =>
      constructor
      · intro c hc
        exact isWord_of_isBlank (hblanks c (List.mem_of_mem_head? hc))
      · have hnil := trimLeft_append_blanks hblanks (by simp : ∀ c ∈ ([] : Text).head?, _)
        rw [List.append_nil] at hnil
        rw [hnil]
        rfl
  | @cons blanks w rest token tokens hblanks htoken hrest =>
      have hstart : token.startsOperand = false := hhead token rfl
      obtain ⟨c, rfl, hc, hparen⟩ : ∃ c, w = [c] ∧ isMark c ∧ c ≠ '(' := by
        cases htoken with
        | decimal => contradiction
        | hexadecimal => contradiction
        | name => contradiction
        | op o => exact ⟨o.sign, rfl, by cases o <;> decide⟩
        | openParen => contradiction
        | closeParen => exact ⟨')', rfl, by decide⟩
      obtain ⟨hblank, hword⟩ := of_isMark hc
      constructor
      · exact head?_append_blanks (fun c => isWord_of_isBlank) hblanks c hword rest
      · rw [trimLeft_append_blanks hblanks]
        · simp [hasPrefix, dropPrefix?, hparen.symm]
        · rintro _ ⟨⟩
          exact hblank

/-- After a literal or a name comes what `Writes.follows` says. -/
theorem Writes.follows_operand {token : Token} {tokens : List Token} {t : Text}
    (h : Writes tokens t) (hseparated : Separated (token :: tokens)) (htoken : token.isOperand) :
  (∀ c ∈ t.head?, isWord c = false) ∧ hasPrefix ['('] (trimLeft t) = false
  := by
  have hends : token.endsOperand := by
    cases token with
    | number | ident => rfl
    | op | openParen | closeParen => contradiction
  apply h.follows
  intro next hnext
  simpa [hends] using (separated_cons.mp hseparated).1 next hnext

/-- Tokens are read back from their text as long as no operand follows another one. -/
theorem Writes.lexFrom {tokens : List Token} {t : Text} (h : Writes tokens t)
    (hseparated : Separated tokens) :
  Token.lexFrom 0 t = .ok (some tokens)
  := by
  induction h with
  | nil hblanks => simpa [Token.lexFrom] using lexFrom_blanks hblanks []
  | cons hblanks htoken hrest ih =>
      rw [lexFrom_blanks hblanks,
        htoken.lexFrom fun hoperand => (hrest.follows_operand hseparated hoperand).1,
        ih (separated_cons.mp hseparated).2]
      rfl

/-! ### No calls -/

theorem isIdentStart_of_not_isWord {c : Char} (h : isWord c = false) :
  isIdentStart c = false
  := by
  rw [← Bool.not_eq_true] at h ⊢
  exact mt isWord_of_isIdentStart h

theorem isIdentStart_of_blanks {blanks : Text} (h : Blanks blanks) :
  ∀ c ∈ blanks, isIdentStart c = false
  := fun c hc => isIdentStart_of_not_isWord (isWord_of_isBlank (h c hc))

theorem looksLikeCall_append {front : Text} (h : ∀ c ∈ front, isIdentStart c = false) (t : Text) :
  Token.looksLikeCall (front ++ t) = Token.looksLikeCall t
  := by
  induction front with
  | nil => rfl
  | cons c front ih =>
      rw [List.cons_append, Token.looksLikeCall, h c List.mem_cons_self, Bool.false_and,
        Bool.false_or, ih fun d hd => h d (List.mem_cons_of_mem c hd)]

theorem looksLikeCall_word {w rest : Text} (hw : ∀ c ∈ w, isWord c)
    (hrest : ∀ c ∈ rest.head?, isWord c = false)
    (hparen : hasPrefix ['('] (trimLeft rest) = false) :
  Token.looksLikeCall (w ++ rest) = Token.looksLikeCall rest
  := by
  induction w with
  | nil => rfl
  | cons c w ih =>
      have hw' : ∀ d ∈ w, isWord d := fun d hd => hw d (List.mem_cons_of_mem c hd)
      rw [List.cons_append, Token.looksLikeCall, (takeWhile_append_all hw' hrest).2, hparen,
        Bool.and_false, Bool.false_or, ih hw']

theorem Writes.looksLikeCall {tokens : List Token} {t : Text} (h : Writes tokens t)
    (hseparated : Separated tokens) :
  Token.looksLikeCall t = false
  := by
  induction h with
  | nil hblanks =>
      have happend := looksLikeCall_append (isIdentStart_of_blanks hblanks) []
      simpa [Token.looksLikeCall] using happend
  | @cons blanks w rest token tokens hblanks htoken hrest ih =>
      rw [looksLikeCall_append (isIdentStart_of_blanks hblanks),
        ← ih (separated_cons.mp hseparated).2]
      cases hoperand : token.isOperand with
      | true =>
          obtain ⟨hword, hparen⟩ := hrest.follows_operand hseparated hoperand
          exact looksLikeCall_word (htoken.isWord hoperand) hword hparen
      | false =>
          obtain ⟨c, rfl, hc⟩ := htoken.exists_mark hoperand
          apply looksLikeCall_append
          simpa using isIdentStart_of_not_isWord (of_isMark hc).2

/-! ### Expressions -/

/-- The tokens of a text that writes them are found: it has no comments, no operators that are
not supported and no calls. -/
theorem Writes.tokenize {tokens : List Token} {t : Text} (h : Writes tokens t)
    (hseparated : Separated tokens) :
  Token.tokenize t = .ok (some tokens)
  := by
  have hlex := h.lexFrom hseparated
  have hnot {c : Char} (hblank : isBlank c = false) (htoken : Token.isTokenChar c = false) :
      c ∉ t := by
    intro hc
    simpa [hblank, htoken] using Token.isTokenChar_of_lexFrom hlex c hc
  have hslash : '/' ∉ t := hnot rfl (by decide)
  rw [Token.tokenize, Header.stripComments_of_not_mem hslash,
    Token.any_isUnsupportedOp_eq_false_iff.mpr ⟨hslash, hnot rfl (by decide)⟩,
    h.looksLikeCall hseparated]
  exact hlex

/-- A text is a rendering of an expression: it writes tokens that stand for the expression. -/
def Renders (t : Text) (e : Tree) : Prop :=
  ∃ tokens, Derives .sum tokens e ∧ Writes tokens t

/-- A rendering of an expression has the value of the expression, and it has no value exactly if
some name in the expression has none. -/
theorem evaluate_rendering {t : Text} {e : Tree} (h : Renders t e) (known : Table Int) :
  evaluate known t = .ok (e.value? known) ∧
    (e.value? known = none ↔ ∃ name ∈ e.names, known.get? name = none)
  := by
  obtain ⟨tokens, hderives, hwrites⟩ := h
  refine ⟨?_, Tree.value?_eq_none_iff⟩
  rw [evaluate_of_tokenize (hwrites.tokenize hderives.separated), runPostfix_toPostfix hderives]

/-- Blanks and endings are optional, and parentheses go before precedence. -/
theorem evaluate_rendering_product :
  let e := Tree.binary .times (.binary .plus (.constant "A") (.number 31)) (.number 2)
  Renders "(A+0x1Fu) * 2".toList e ∧ e.names = ["A"] ∧ e.value? [("A", 5)] = some 72 ∧
    evaluate [("A", 5)] "(A+0x1Fu) * 2".toList = .ok (some 72) ∧
    evaluate [] "(A+0x1Fu) * 2".toList = .ok none
  := by
  intro e
  have hderives : Derives .sum [.openParen, .ident "A", .op .plus, .number 31, .closeParen,
      .op .times, .number 2] e :=
    .ofProduct (.times (.ofFactor (.parens (.plus (.ofProduct (.ofFactor (.constant "A")))
      (.ofFactor (.number 31))))) (.number 2))
  have hblanks : Blanks [] := by simp [Blanks]
  have hspace : Blanks [' '] := by simp [Blanks, isBlank]
  have hname : Spells (.ident "A") ['A'] := @Spells.name ['A'] rfl
  have hhex : Spells (.number 31) ['0', 'x', '1', 'F', 'u'] :=
    @Spells.hexadecimal 'x' ['1', 'F'] [1, 15] "u" (.inl rfl) (by simp) rfl (by decide)
  have hdecimal : Spells (.number 2) ['2'] :=
    @Spells.decimal ['2'] [2] "" (by simp) rfl (by decide) (by decide)
  have hwrites : Writes [.openParen, .ident "A", .op .plus, .number 31, .closeParen, .op .times,
      .number 2] "(A+0x1Fu) * 2".toList :=
    .cons hblanks .openParen <| .cons hblanks hname <| .cons hblanks (.op .plus) <|
      .cons hblanks hhex <| .cons hblanks .closeParen <| .cons hspace (.op .times) <|
      .cons hspace hdecimal <| .nil hblanks
  have hrenders : Renders "(A+0x1Fu) * 2".toList e := ⟨_, hderives, hwrites⟩
  exact ⟨hrenders, rfl, rfl, (evaluate_rendering hrenders [("A", 5)]).1,
    (evaluate_rendering hrenders []).1⟩

end Expr

end ContractInterface
