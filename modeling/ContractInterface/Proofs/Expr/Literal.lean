import ContractInterface.Proofs.Expr.Length
import ContractInterface.Proofs.Expr.Spelling
import ContractInterface.Proofs.Header.Comment
import ContractInterface.Proofs.Header.SetAside

/-!
# Lengths read as expressions

A length of digits is read directly, after the blanks around it have been dropped; any other length
is evaluated.  Both ways agree.  Blanks around an expression stay blanks when its comments are
removed, so they change neither its tokens nor its value; and a run of digits is one token, the
number that is read from it, or it is refused with the same error.  So every length is the value of
its text as an expression, unless that value is negative.
-/

namespace ContractInterface

open Text

/-! ### Comments and the blanks around a text -/

namespace Header

section Blanks

variable {blanks : Text} (hblanks : Blanks blanks)

include hblanks

/-- A mark at the front of a text that ends with blanks is in front of the blanks. -/
theorem exists_cons_of_append_blanks {mark : Char} (hmark : isBlank mark = false) {t rest : Text}
    (h : t ++ blanks = mark :: rest) :
  ∃ u, t = mark :: u
  := by
  cases t with
  | nil =>
      rw [List.nil_append] at h
      exact absurd (h ▸ List.mem_cons_self) (not_mem_of_blanks hblanks hmark)
  | cons c t =>
      obtain ⟨rfl, -⟩ := List.cons.inj h
      exact ⟨t, rfl⟩

/-- Blanks in front of a text stay. -/
theorem stripComments_blanks_append (t : Text) :
  stripComments (blanks ++ t) = blanks ++ stripComments t
  := by
  have hslash : '/' ∉ blanks := not_mem_of_blanks hblanks rfl
  apply stripComments_append
  · exact fun hline => hslash (hline.subset List.mem_cons_self)
  · exact fun hblock => hslash (hblock.subset List.mem_cons_self)
  · intro hlast
    exact absurd (List.mem_of_getLast? hlast) hslash

theorem closesBlock_append_blanks (t : Text) :
  closesBlock (t ++ blanks) = closesBlock t
  := by
  fun_induction closesBlock t with
  | case1 t => rfl
  | case2 c t hopen ih =>
      rw [List.cons_append, closesBlock, ih]
      intro rest hc hrest
      obtain ⟨u, rfl⟩ := exists_cons_of_append_blanks hblanks rfl hrest
      exact hopen u hc rfl
  | case3 =>
      rw [List.nil_append, closesBlock_eq_isSome, ← Bool.not_eq_true, Option.isSome_iff_exists]
      rintro ⟨⟨body, rest⟩, hcut⟩
      apply not_mem_of_blanks hblanks (c := '*') rfl
      rw [eq_append_of_cutBlock? hcut]
      simp

/-- Blanks at the end of a text are outside of the blocks that are closed in it. -/
theorem dropBlocks_append_blanks {inside : Bool} {t : Text} (h : inside → closesBlock t) :
  dropBlocks inside (t ++ blanks) = dropBlocks inside t ++ blanks
  := by
  fun_induction dropBlocks inside t with
  | case1 inside =>
      cases inside with
      | false => exact dropBlocks_of_not_mem (not_mem_of_blanks hblanks rfl)
      | true =>
          have hclosed := h rfl
          contradiction
  | case2 t ih => exact ih (by simp)
  | case3 c t hopen ih =>
      rw [List.cons_append, dropBlocks, ih]
      · rwa [closesBlock] at h
        exact hopen
      · intro rest hc hrest
        obtain ⟨u, rfl⟩ := exists_cons_of_append_blanks hblanks rfl hrest
        exact hopen u hc rfl
  | case4 t hclosed ih =>
      rw [List.cons_append, List.cons_append, dropBlocks,
        if_pos (by rwa [closesBlock_append_blanks hblanks]), ih fun _ => hclosed]
      rfl
  | case5 t hclosed ih =>
      rw [List.cons_append, List.cons_append, dropBlocks,
        if_neg (by rwa [closesBlock_append_blanks hblanks]), ih (by simp)]
      rfl
  | case6 c t hopen ih =>
      rw [List.cons_append, dropBlocks, ih (by simp)]
      · rfl
      · intro rest hc hrest
        obtain ⟨u, rfl⟩ := exists_cons_of_append_blanks hblanks rfl hrest
        exact hopen u hc rfl

/-- Of the blanks at the end of a text those stay that do not belong to a line comment. -/
theorem exists_dropLineComments_append_blanks (inside : Bool) (t : Text) :
  ∃ kept, Blanks kept ∧
    dropLineComments inside (t ++ blanks) = dropLineComments inside t ++ kept
  := by
  fun_induction dropLineComments inside t with
  | case1 inside =>
      refine ⟨dropLineComments inside blanks, ?_, rfl⟩
      intro c hc
      exact hblanks c ((dropLineComments_sublist inside blanks).subset hc)
  | case2 t ih =>
      obtain ⟨kept, hkept, heq⟩ := ih
      refine ⟨kept, hkept, ?_⟩
      rw [List.cons_append, dropLineComments, heq, List.cons_append]
  | case3 c t hc ih =>
      obtain ⟨kept, hkept, heq⟩ := ih
      refine ⟨kept, hkept, ?_⟩
      rw [List.cons_append, dropLineComments, heq]
      exact hc
  | case4 t ih =>
      obtain ⟨kept, hkept, heq⟩ := ih
      refine ⟨kept, hkept, ?_⟩
      rw [List.cons_append, List.cons_append, dropLineComments, heq]
  | case5 c t hslash ih =>
      obtain ⟨kept, hkept, heq⟩ := ih
      refine ⟨kept, hkept, ?_⟩
      rw [List.cons_append, dropLineComments, heq, List.cons_append]
      intro rest hc hrest
      obtain ⟨u, rfl⟩ := exists_cons_of_append_blanks hblanks rfl hrest
      exact hslash u hc rfl

/-- Blanks at the end of a text leave blanks at most. -/
theorem exists_stripComments_append_blanks (t : Text) :
  ∃ kept, Blanks kept ∧ stripComments (t ++ blanks) = stripComments t ++ kept
  := by
  rw [stripComments, dropBlocks_append_blanks hblanks (by simp)]
  exact exists_dropLineComments_append_blanks hblanks false (dropBlocks false t)

end Blanks

end Header

namespace Expr

variable {t : Text}

/-! ### Blanks around an expression -/

section Blanks

variable {blanks : Text} (hblanks : Blanks blanks)

include hblanks

/-- Blanks at the end of a text do not stand between a name and a parenthesis. -/
theorem looksLikeCall_append_blanks (t : Text) :
  Token.looksLikeCall (t ++ blanks) = Token.looksLikeCall t
  := by
  induction t with
  | nil =>
      have happend := looksLikeCall_append (isIdentStart_of_blanks hblanks) []
      simpa [Token.looksLikeCall] using happend
  | cons c t ih =>
      have hdrop : (t ++ blanks).dropWhile isWord = t.dropWhile isWord ++ blanks :=
        (takeWhile_append_stop
          (fun d hd => isWord_of_isBlank (hblanks d (List.mem_of_mem_head? hd))) t).2
      have hparen : hasPrefix ['('] (trimLeft (t.dropWhile isWord ++ blanks)) =
          hasPrefix ['('] (trimLeft (t.dropWhile isWord)) := by
        rw [trimLeft, List.dropWhile_append]
        split
        · rename_i hempty
          rw [List.dropWhile_eq_nil_iff.mpr hblanks, trimLeft, List.isEmpty_iff.mp hempty]
        · rename_i hempty
          obtain ⟨d, u, hu⟩ := List.exists_cons_of_ne_nil (mt List.isEmpty_iff.mpr hempty)
          rw [trimLeft, hu, List.cons_append]
          simp only [hasPrefix, dropPrefix?]
          split
          · rfl
          · rfl
      rw [List.cons_append, Token.looksLikeCall, Token.looksLikeCall, hdrop, hparen, ih]

theorem any_isUnsupportedOp_blanks :
  blanks.any Token.isUnsupportedOp = false
  := Token.any_isUnsupportedOp_eq_false_iff.mpr
    ⟨not_mem_of_blanks hblanks rfl, not_mem_of_blanks hblanks rfl⟩

theorem lexFrom_append_blanks (t : Text) :
  Token.lexFrom 0 (t ++ blanks) = Token.lexFrom 0 t
  := by
  have hnone : Token.lexFrom 0 blanks = .ok (some []) := by
    have happend := lexFrom_blanks hblanks []
    rwa [List.append_nil] at happend
  rw [Token.lexFrom_append (fun c hc => hblanks c (List.mem_of_mem_head? hc)) t (Nat.zero_le _),
    hnone, Token.join_nil_right]

end Blanks

/-- Blanks around an expression do not change its tokens. -/
theorem tokenize_trim (t : Text) :
  Token.tokenize (trim t) = Token.tokenize t
  := by
  obtain ⟨front, back, hfront, hback, ht⟩ := exists_eq_trim t
  obtain ⟨kept, hkept, hstrip⟩ := Header.exists_stripComments_append_blanks hback (front ++ trim t)
  conv_rhs => rw [ht, Token.tokenize, hstrip, Header.stripComments_blanks_append hfront]
  rw [Token.tokenize, looksLikeCall_append_blanks hkept,
    looksLikeCall_append (isIdentStart_of_blanks hfront), lexFrom_append_blanks hkept,
    lexFrom_blanks hfront, List.any_append, List.any_append, any_isUnsupportedOp_blanks hfront,
    any_isUnsupportedOp_blanks hkept, Bool.false_or, Bool.or_false]

theorem evaluate_trim (known : Table Int) (t : Text) :
  evaluate known (trim t) = evaluate known t
  := by
  rw [evaluate, tokenize_trim, evaluate]

/-! ### Literals -/

/-- A run of digits is one token, or it is refused. -/
theorem tokenize_digits (hne : t ≠ []) (h : ∀ c ∈ t, c.isDigit) :
  Token.tokenize t = (fun value => some [Token.number value]) <$> Numeral.read t
  := by
  have hnot {c : Char} (hc : c.isDigit = false) : c ∉ t := by
    intro hmem
    rw [h c hmem] at hc
    contradiction
  have hdecimal : ∀ c ∈ t, isDecimal c := by
    intro c hc
    rw [isDecimal, digitValue?_of_isDigit (h c hc), Option.isSome_some]
  have hnumber : Token.takeNumber? t = (fun value => some (value, [])) <$> Numeral.read t := by
    have hliteral : Token.takeNumber? (t ++ "".toList ++ []) = _ :=
      takeNumber?_decimal (by simp) hne hdecimal (by decide)
    simpa using hliteral
  rw [Token.tokenize, Header.stripComments_of_not_mem (hnot rfl),
    Token.any_isUnsupportedOp_eq_false_iff.mpr ⟨hnot rfl, hnot rfl⟩,
    Token.looksLikeCall_of_not_mem (hnot rfl)]
  obtain ⟨c, t, rfl⟩ := List.exists_cons_of_ne_nil hne
  have hc := List.mem_cons_self (a := c) (l := t)
  rw [Bool.or_self, if_neg Bool.false_ne_true, Token.lexFrom, isBlank_of_isDigit (h c hc),
    if_neg Bool.false_ne_true, Token.take?, if_pos (hdecimal c hc), hnumber]
  cases Numeral.read (c :: t) with
  | error e => rfl
  | ok value =>
      have hskip := lexFrom_skip t []
      rw [List.append_nil] at hskip
      simp [bind, Except.bind, pure, Except.pure, hskip, Token.lexFrom]

/-- The value of a run of digits is the number that is read from it. -/
theorem evaluate_digits (known : Table Int) (hne : t ≠ []) (h : ∀ c ∈ t, c.isDigit) :
  evaluate known t = (some ∘ Int.ofNat) <$> Numeral.read t
  := by
  rw [evaluate, tokenize_digits hne h]
  cases Numeral.read t with
  | error e => rfl
  | ok value => rfl

/-- A length stands for the value of its text as an expression. -/
theorem lengthValue_eq_evaluate (known : Table Int) (t : Text) :
  lengthValue known t = evaluate known t
  := by
  rw [lengthValue]
  split
  · rename_i hdigits
    simp only [Bool.and_eq_true, Bool.not_eq_true', List.isEmpty_eq_false_iff,
      List.all_eq_true] at hdigits
    rw [← evaluate_digits known hdigits.1 hdigits.2, evaluate_trim]
  · apply evaluate_trim

/-- A length is the value of its text as an expression, and none if that value is negative: digits
are read as the evaluation would read them, with the same limit, and the blanks around a length
make no difference. -/
theorem resolveLength_eq_evaluate (known : Table Int) (token : Text) :
  resolveLength known token = (fun value => value.bind Int.toNat?) <$> evaluate known token
  := by
  rw [resolveLength_eq_lengthValue, lengthValue_eq_evaluate]

end Expr

end ContractInterface
