import ContractInterface.Proofs.Header.DataMember
import ContractInterface.Proofs.Header.Occurrence

/-!
# Statements without data members

A statement is set aside by its first word, if that is the keyword of a nested type or of a member
outside the layout; by a parenthesis; or by the word `operator`.  What stands behind an equals sign
is cut off before, so a parenthesis behind an equals sign does not count; but then the word
`operator` has to stand in front of the sign, as it does in a method that is an operator.
-/

namespace ContractInterface

namespace Text

/-- What blanks in front and at the end are taken off. -/
theorem exists_eq_trim (t : Text) :
  ∃ front back, Blanks front ∧ Blanks back ∧ t = front ++ trim t ++ back
  := by
  obtain ⟨front, hfront, ht⟩ := exists_blanks_append_trimLeft t
  refine ⟨front, ((trimLeft t).reverse.takeWhile isBlank).reverse, hfront, ?_, ?_⟩
  · intro c hc
    exact List.mem_takeWhile_imp (List.mem_reverse.mp hc)
  · rw [List.append_assoc, trim, trimRight, dropEndWhile, ← List.reverse_append,
      List.takeWhile_append_dropWhile, List.reverse_reverse]
    exact ht

/-- A text that starts with a word has no blanks in front. -/
theorem trimLeft_of_takeWhile {t : Text} (h : t.takeWhile isWord ≠ []) :
  trimLeft t = t
  := by
  cases t with
  | nil => rfl
  | cons c t =>
      have hc : isWord c := by
        by_contra hc
        simp [hc] at h
      rw [trimLeft_cons_solid (isBlank_of_isWord hc)]

end Text

namespace Header.Statement

open Text

/-! ### Access labels -/

/-- The text behind an access label. -/
theorem exists_of_afterLabel? {t rest : Text} (h : afterLabel? t = some rest) :
  ∃ word ∈ accessWords, ∃ blanks back, Blanks blanks ∧
    t = (word.toList ++ blanks) ++ ':' :: back ∧ rest = trimLeft back
  := by
  obtain ⟨word, hword, hfound⟩ := List.exists_of_findSome?_eq_some h
  simp only [Option.bind_eq_bind, Option.bind_eq_some_iff, Option.some.injEq] at hfound
  obtain ⟨behind, hbehind, back, hback, rfl⟩ := hfound
  obtain ⟨blanks, hblanks, hsplit⟩ := exists_blanks_append_trimLeft behind
  rw [eq_append_of_dropPrefix? hback] at hsplit
  refine ⟨word, hword, blanks, back, hblanks, ?_, rfl⟩
  rw [eq_append_of_dropPrefix? hbehind, hsplit]
  simp

/-- An access label has a colon. -/
theorem afterLabel?_of_not_mem {t : Text} (h : ':' ∉ t) :
  afterLabel? t = none
  := by
  rw [Option.eq_none_iff_forall_not_mem]
  intro rest hrest
  obtain ⟨word, -, blanks, back, -, rfl, -⟩ := exists_of_afterLabel? hrest
  simp at h

theorem afterLabel?_ne_none {word : String} (hword : word ∈ accessWords) {blanks : Text}
    (hblanks : Blanks blanks) (back : Text) :
  afterLabel? ((word.toList ++ blanks) ++ ':' :: back) ≠ none
  := by
  intro hnone
  rw [afterLabel?, List.findSome?_eq_none_iff] at hnone
  have hword := hnone word hword
  rw [List.append_assoc, dropPrefix?_append] at hword
  have hcolon : trimLeft (blanks ++ ':' :: back) = ':' :: back :=
    trimLeft_append_blanks hblanks (by simp; rfl)
  simp [hcolon, dropPrefix?] at hword

theorem isWord_of_mem_accessWords {word : String} (h : word ∈ accessWords) :
  ∀ c ∈ word.toList, isWord c
  := by
  have hwords : ∀ word ∈ accessWords, word.toList.all isWord := by decide
  exact List.all_eq_true.mp (hwords word h)

/-- An access label has one word in front of its colon. -/
theorem words_label {word : String} (hword : word ∈ accessWords) {blanks : Text}
    (hblanks : Blanks blanks) :
  words (word.toList ++ blanks) = [word.toList]
  := by
  have hne : ∀ word ∈ accessWords, word.toList ≠ [] := by decide
  rw [words_append_right hblanks, words_of_solid (hne word hword)]
  intro c hc
  exact isBlank_of_isWord (isWord_of_mem_accessWords hword c hc)

/-- A statement whose first word is not one of an access label has no label. -/
theorem afterLabel?_of_takeWhile {t : Text}
    (h : ∀ word ∈ accessWords, t.takeWhile isWord ≠ word.toList) :
  afterLabel? t = none
  := by
  rw [Option.eq_none_iff_forall_not_mem]
  intro rest hrest
  obtain ⟨word, hword, blanks, back, hblanks, rfl, -⟩ := exists_of_afterLabel? hrest
  apply h word hword
  rw [List.append_assoc]
  have hstop := head?_append_blanks (fun _ => isWord_of_isBlank) hblanks ':' (by decide) back
  exact (takeWhile_append_all (isWord_of_mem_accessWords hword) hstop).1

/-- A text that has no label in front gets none from a word behind it. -/
theorem afterLabel?_append {t : Text} (h : afterLabel? t = none) (hwords : words t ≠ []) {c : Char}
    (hc : isWord c) (rest : Text) :
  afterLabel? (t ++ ' ' :: c :: rest) = none
  := by
  rw [Option.eq_none_iff_forall_not_mem]
  intro behind hbehind
  obtain ⟨word, hword, blanks, back, hblanks, heq, -⟩ := exists_of_afterLabel? hbehind
  rcases List.append_eq_append_iff.mp heq with ⟨between, hlabel, hrest⟩ | ⟨between, rfl, hrest⟩
  · match between with
    | [] => simp at hrest
    | [d] =>
        obtain ⟨-, rfl, -⟩ : ' ' = d ∧ c = ':' ∧ rest = back := by simpa using hrest
        revert hc
        decide
    | d :: e :: between =>
        obtain ⟨rfl, rfl, -⟩ : ' ' = d ∧ c = e ∧ rest = between ++ ':' :: back := by
          simpa using hrest
        -- the label would have a second word
        have hone := congrArg List.length (words_label hword hblanks)
        rw [hlabel, words_append rfl, List.length_append, List.length_singleton] at hone
        have hfirst := List.length_pos_of_ne_nil hwords
        have hsecond := List.length_pos_of_ne_nil (words_cons_ne_nil (isBlank_of_isWord hc) between)
        omega
  · cases between with
    | nil => simp at hrest
    | cons d between =>
        obtain ⟨rfl, -⟩ := List.cons.inj hrest
        exact afterLabel?_ne_none hword hblanks between h

/-! ### Keywords -/

/-- A statement whose first word is a keyword of a nested type or of a member outside the layout is
set aside. -/
theorem ofText_of_keyword {keyword : String} (hkeyword : keyword ∈ nonDataKeywords) {t : Text}
    (h : t.takeWhile isWord = keyword.toList) :
  ofText t = .skipped
  := by
  have hwords : ∀ keyword ∈ nonDataKeywords,
      keyword.toList ≠ [] ∧ ∀ word ∈ accessWords, keyword.toList ≠ word.toList := by decide
  obtain ⟨hne, hlabel⟩ := hwords keyword hkeyword
  have hlabels : dropLabels t.length t = t := by
    apply dropLabels_of_eq_none
    apply afterLabel?_of_takeWhile
    rwa [h]
  have hfirst : (beforeInitializer none t).takeWhile isWord = keyword.toList := by
    rcases beforeInitializer_cases none t with hall | ⟨back, hback⟩
    · rw [hall, h]
    · have hstop : ∀ c ∈ ('=' :: back).head?, isWord c = false := by
        rintro c ⟨⟩
        decide
      rw [hback, (takeWhile_append_stop hstop _).1] at h
      exact h
  have hdeclarator : (declarator t).takeWhile isWord = keyword.toList := by
    rw [declarator, hlabels, trim, takeWhile_trimRight,
      trimLeft_of_takeWhile (by rwa [hfirst]), hfirst]
  have hskipped : isSkipped (declarator t) := by
    have hany : nonDataKeywords.any (fun word =>
        (dropKeyword? word.toList (declarator t)).isSome) := by
      rw [List.any_eq_true]
      use keyword, hkeyword
      rw [dropKeyword?_of_takeWhile hdeclarator]
      rfl
    rw [isSkipped, hany, Bool.or_true]
  rw [ofText, hskipped, Bool.or_true, if_pos rfl]

/-! ### Methods -/

/-- Before every equals sign without a parenthesis in front of it stands the word `operator`. -/
def OperatorFirst (t : Text) : Prop :=
  ∀ front back, t = front ++ '=' :: back → '(' ∉ front → "operator".toList ∈ runs front

instance (t : Text) : Decidable (OperatorFirst t) :=
  decidable_of_iff (∀ n < t.length, t[n]? = some '=' →
      '(' ∈ t.take n ∨ "operator".toList ∈ runs (t.take n)) <| by
    constructor
    · rintro h front back rfl hparen
      have hfront := h front.length (by simp) (by simp)
      rw [List.take_left] at hfront
      exact hfront.resolve_left hparen
    · intro h n hn hsign
      have hsplit : t = t.take n ++ '=' :: t.drop (n + 1) := by
        obtain ⟨_, hget⟩ := List.getElem?_eq_some_iff.mp hsign
        rw [← hget, ← List.drop_eq_getElem_cons, List.take_append_drop]
      rw [or_iff_not_imp_left]
      exact h _ _ hsplit

namespace OperatorFirst

/-- Behind a parenthesis everything is allowed. -/
theorem append {header : Text} (h : OperatorFirst header) (hparen : '(' ∈ header) (rest : Text) :
  OperatorFirst (header ++ rest)
  := by
  intro front back heq hfront
  rcases List.append_eq_append_iff.mp heq with ⟨between, rfl, -⟩ | ⟨between, rfl, hback⟩
  · exact absurd (List.mem_append_left between hparen) hfront
  · cases between with
    | nil =>
        rw [List.append_nil] at hparen
        exact absurd hparen hfront
    | cons c between =>
        obtain ⟨rfl, -⟩ := List.cons.inj hback
        exact h front between rfl hfront

theorem collapse {t : Text} (h : OperatorFirst t) :
  OperatorFirst (collapse t)
  := by
  intro front back heq hfront
  obtain ⟨blanks, rest, hblanks, -, hsqueeze⟩ := exists_eq_trim (squeeze t)
  have hsplit : squeeze t = (blanks ++ front) ++ '=' :: (back ++ rest) := by
    rw [hsqueeze, trim_squeeze, heq]
    simp
  obtain ⟨front', back', rfl, hfront'⟩ := exists_of_squeeze_eq rfl hsplit
  have hwords : words front' = words front := by
    rw [← words_squeeze, hfront', words_append_left hblanks]
  rw [← mem_runs_congr (by decide) hwords]
  apply h front' back' rfl
  rw [← mem_squeeze rfl, hfront', List.mem_append, not_or]
  exact ⟨not_mem_of_blanks hblanks rfl, hfront⟩

/-- An access label has neither a parenthesis nor the word `operator`. -/
theorem afterLabel? {t rest : Text} (h : OperatorFirst t) (hparen : '(' ∈ t)
    (hrest : afterLabel? t = some rest) :
  OperatorFirst rest ∧ '(' ∈ rest
  := by
  obtain ⟨word, hword, blanks, back, hblanks, rfl, rfl⟩ := exists_of_afterLabel? hrest
  have hnot : ∀ word ∈ accessWords, '(' ∉ word.toList ∧ "operator".toList ∉ runs word.toList := by
    decide
  obtain ⟨hopen, hoperator⟩ := hnot word hword
  have hopen : '(' ∉ word.toList ++ blanks := by
    rw [List.mem_append, not_or]
    exact ⟨hopen, not_mem_of_blanks hblanks rfl⟩
  rw [← mem_runs_congr (by decide) (words_append_right hblanks _)] at hoperator
  refine ⟨?_, ?_⟩
  · intro front back' heq hfront
    obtain ⟨blanks', hblanks', hback⟩ := exists_blanks_append_trimLeft back
    have hparen : '(' ∉ (word.toList ++ blanks) ++ ':' :: (blanks' ++ front) := by
      simp only [List.mem_append, List.mem_cons, not_or] at hopen ⊢
      exact ⟨hopen, by decide, not_mem_of_blanks hblanks' rfl, hfront⟩
    have hruns := h ((word.toList ++ blanks) ++ ':' :: (blanks' ++ front)) back'
      (by rw [hback, heq]; simp) hparen
    rw [runs_append (by decide), List.mem_append] at hruns
    rw [← mem_runs_congr (by decide) (words_append_left hblanks' front)]
    exact hruns.resolve_left hoperator
  · rw [mem_trimLeft rfl]
    rcases List.mem_append.mp hparen with hmem | hmem
    · exact absurd hmem hopen
    · simpa using hmem

theorem dropLabels {t : Text} (h : OperatorFirst t) (hparen : '(' ∈ t) (n : Nat) :
  OperatorFirst (dropLabels n t) ∧ '(' ∈ dropLabels n t
  := by
  induction n generalizing t with
  | zero => exact ⟨h, hparen⟩
  | succ n ih =>
      rw [Statement.dropLabels]
      split
      · rename_i rest hrest
        obtain ⟨hfirst, hmem⟩ := h.afterLabel? hparen hrest
        exact ih hfirst hmem
      · exact ⟨h, hparen⟩

end OperatorFirst

/-- A statement with the word `operator` is set aside. -/
theorem isSkipped_of_operator {t : Text} (h : "operator".toList ∈ runs t) :
  isSkipped t
  := by
  have hword : containsWord "operator".toList none t = true :=
    containsWord_of_mem (by decide) h
  rw [isSkipped, hword, Bool.or_true, Bool.true_or, Bool.true_or, Bool.true_or]

/-- A statement with a parenthesis is set aside, unless it is in an initial value. -/
theorem ofText_of_operatorFirst {t : Text} (h : OperatorFirst t) (hparen : '(' ∈ t) :
  ofText t = .skipped
  := by
  obtain ⟨hfirst, hmem⟩ := h.dropLabels hparen t.length
  have hskipped : isSkipped (declarator t) := by
    rw [declarator]
    generalize dropLabels t.length t = rest at hfirst hmem
    by_cases hkept : '(' ∈ beforeInitializer none rest
    · apply isSkipped_of_mem
      rwa [mem_trim rfl]
    · rcases beforeInitializer_cases none rest with hall | ⟨back, hback⟩
      · rw [hall] at hkept
        contradiction
      · apply isSkipped_of_operator
        rw [mem_runs_congr (by decide) (words_trim _)]
        exact hfirst _ back hback hkept
  rw [ofText, hskipped, Bool.or_true, if_pos rfl]

end Header.Statement

end ContractInterface
