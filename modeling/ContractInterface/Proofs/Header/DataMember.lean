import ContractInterface.Proofs.Header.Declaration
import ContractInterface.Proofs.Text.Run

/-!
# Statements that declare data members

Before a statement is read as a declaration, access labels and an initial value are taken off, and
statements of other kinds are set aside.  A well-formed declaration passes these steps unchanged,
unless there is a parenthesis in it: every statement with a parenthesis is taken for a method.
-/

namespace ContractInterface.Header

open Member

/-- Declarations whose names are identifiers, whose types are not taken for something else, and
which the keywords that set a statement aside do not stand in. -/
structure Member.WellFormed (m : Member) : Prop where
  named : m.Named
  type_words : Text.words m.type ≠ []
  type_marks : ∀ c ∈ m.type, c ∉ marks
  type_last : (Text.collapse m.type).getLast? ≠ some ','
  unlabelled : Statement.afterLabel? (Text.collapse m.render) = none
  keyword : ∀ word ∈ Statement.nonDataKeywords,
    Text.dropKeyword? word.toList (Text.collapse m.render) = none
  operator : Statement.containsWord "operator".toList none (Text.collapse m.render) = false

theorem isWord_of_mem_marks {c : Char} (h : c ∈ marks) :
  isWord c = false
  := by
  have hmarks : marks.all (fun c => !isWord c) := by decide
  simpa using List.all_eq_true.mp hmarks c h

namespace Member

/-! ### Characters of declarations -/

/-- Apart from words, blanks, commas and brackets, a declaration has the characters of its type and
of its lengths. -/
theorem not_mem_render {m : Member} (h : m.Named) {c : Char} (hword : isWord c = false)
    (hown : c ∉ [' ', ',', '[', ']']) (htype : c ∉ m.type)
    (hlengths : ∀ length ∈ m.lengths, c ∉ length) :
  c ∉ m.render
  := by
  simp only [List.mem_cons, List.not_mem_nil, or_false, not_or] at hown
  intro hmem
  rcases List.mem_append.mp hmem with hmem | hmem
  · contradiction
  · rcases List.mem_cons.mp hmem with hmem | hmem
    · exact hown.1 hmem
    · rcases mem_declarators h hmem with hmem | hmem | ⟨length, hlength, hmem⟩
      · simp [hword] at hmem
      · simp [hown] at hmem
      · simp [hown, hlengths length hlength] at hmem

/-- Of the marks and the parenthesis, only the brackets are written into declarations. -/
theorem isWord_and_not_mem_of_mem_marks {c : Char} (hc : c ∈ '(' :: marks)
    (hbracket : c ∉ ['[', ']']) :
  isWord c = false ∧ c ∉ [' ', ',', '[', ']']
  := by
  have hmarks : ∀ c ∈ '(' :: marks, c ∉ ['[', ']'] →
      isWord c = false ∧ c ∉ [' ', ',', '[', ']'] := Text.forall_mem_of_all (by decide)
  exact hmarks c hc hbracket

/-- Apart from the brackets around lengths, no mark stands in a declaration. -/
theorem WellFormed.not_mem_render {m : Member} (h : m.WellFormed)
    (hlengths : ∀ length ∈ m.lengths, ∀ c ∈ length, c ∉ marks) {c : Char} (hc : c ∈ marks)
    (hbracket : c ∉ ['[', ']']) :
  c ∉ m.render
  := by
  obtain ⟨hword, hown⟩ := isWord_and_not_mem_of_mem_marks (List.mem_cons_of_mem _ hc) hbracket
  apply Member.not_mem_render h.named hword hown
  · intro hmem
    apply h.type_marks c hmem hc
  · intro length hlength hmem
    apply hlengths length hlength c hmem hc

/-! ### Runs of declarations -/

theorem mem_runs_bracketed {word : Text} (hne : word ≠ []) {lengths : List Text}
    (h : word ∈ Text.runs (bracketed lengths)) :
  ∃ length ∈ lengths, word ∈ Text.runs length
  := by
  induction lengths with
  | nil => simp [bracketed, Text.runs, Text.splitWhere, hne] at h
  | cons length lengths ih =>
      rw [bracketed, List.flatMap_cons, List.cons_append, List.append_assoc,
        List.singleton_append, ← bracketed, Text.runs_cons_boundary rfl, Text.runs_append rfl,
        List.mem_cons, List.mem_append] at h
      rcases h with h | h | h
      · contradiction
      · use length, List.mem_cons_self
      · obtain ⟨length', hlength', h⟩ := ih h
        use length', List.mem_cons_of_mem length hlength'

theorem mem_runs_intercalate {word : Text} (hne : word ≠ []) {names : List Text}
    (h : word ∈ Text.runs ([',', ' '].intercalate names)) :
  ∃ name ∈ names, word ∈ Text.runs name
  := by
  induction names with
  | nil => simp [Text.runs, Text.splitWhere, hne] at h
  | cons name names ih =>
      cases names with
      | nil =>
          rw [List.intercalate_singleton] at h
          use name, List.mem_cons_self
      | cons name' names =>
          rw [List.intercalate_cons_cons, List.append_assoc, List.cons_append,
            List.singleton_append, Text.runs_append rfl, Text.runs_cons_boundary rfl,
            List.mem_append, List.mem_cons] at h
          rcases h with h | h | h
          · use name, List.mem_cons_self
          · contradiction
          · obtain ⟨name'', hname'', h⟩ := ih h
            use name'', List.mem_cons_of_mem name hname''

/-- The runs behind the type are those of the names and of the lengths. -/
theorem mem_runs_declarators {m : Member} (hnamed : m.Named) {word : Text} (hne : word ≠ [])
    (h : word ∈ Text.runs m.declarators) :
  (∃ name ∈ m.names, word ∈ Text.runs name) ∨ ∃ length ∈ m.lengths, word ∈ Text.runs length
  := by
  cases m with
  | array type name lengths =>
      obtain ⟨t, ht⟩ := exists_bracketed_eq hnamed.2
      have hruns : Text.runs (bracketed lengths) = [] :: Text.runs (t ++ [']']) := by
        rw [ht, Text.runs_cons_boundary rfl]
      rw [declarators, ht, Text.runs_append rfl, List.mem_append] at h
      rcases h with h | h
      · exact .inl ⟨name, List.mem_singleton_self name, h⟩
      · have hmem : word ∈ Text.runs (bracketed lengths) := by
          rw [hruns]
          exact List.mem_cons_of_mem [] h
        exact .inr (mem_runs_bracketed hne hmem)
  | plain type names => exact .inl (mem_runs_intercalate hne h)

end Member

/-- A declaration is one statement. -/
theorem Member.WellFormed.not_mem_statementMarks {m : Member} (h : m.WellFormed)
    (hlengths : ∀ length ∈ m.lengths, ∀ c ∈ length, c ∉ marks) :
  ∀ c ∈ m.render, c ∉ statementMarks
  := by
  intro c hc hmark
  simp only [statementMarks, List.mem_cons, List.not_mem_nil, or_false] at hmark
  rcases hmark with rfl | rfl | rfl
  all_goals apply h.not_mem_render hlengths (by decide) (by decide) hc

theorem Member.WellFormed.words_render {m : Member} (h : m.WellFormed) :
  Text.words m.render ≠ []
  := by
  rw [render, Text.words_append rfl]
  simp [h.type_words]

namespace Statement

/-! ### The declarator -/

theorem dropLabels_of_eq_none {t : Text} (h : afterLabel? t = none) (n : Nat) :
  dropLabels n t = t
  := by
  cases n with
  | zero => rfl
  | succ n => rw [dropLabels, h]

theorem beforeInitializer_of_not_mem {t : Text} (h : '=' ∉ t) (before : Option Char) :
  beforeInitializer before t = t
  := by
  induction t generalizing before with
  | nil => rfl
  | cons c t ih =>
      obtain ⟨hc, ht⟩ : '=' ≠ c ∧ '=' ∉ t := by simpa using h
      rw [beforeInitializer, if_neg (by simp [hc.symm]), ih ht]

/-- What is left of a statement goes up to an equals sign. -/
theorem beforeInitializer_cases (before : Option Char) (t : Text) :
  beforeInitializer before t = t ∨ ∃ back, t = beforeInitializer before t ++ '=' :: back
  := by
  induction t generalizing before with
  | nil => exact .inl rfl
  | cons c t ih =>
      rw [beforeInitializer]
      split
      · rename_i hsign
        obtain ⟨⟨rfl, -⟩, -⟩ : (c = '=' ∧ _) ∧ _ := by simpa using hsign
        exact .inr ⟨t, rfl⟩
      · rcases ih (some c) with hall | ⟨back, hback⟩
        · left
          rw [hall]
        · right
          use back
          rw [List.cons_append, ← hback]

theorem declarator_collapse {t : Text} (hlabel : afterLabel? (Text.collapse t) = none)
    (hequals : '=' ∉ t) :
  declarator (Text.collapse t) = Text.collapse t
  := by
  have hequals : '=' ∉ Text.collapse t := by rwa [Text.mem_collapse rfl]
  rw [declarator, dropLabels_of_eq_none hlabel, beforeInitializer_of_not_mem hequals,
    Text.trim_collapse]

/-! ### Statements that are set aside -/

theorem dropBraceInitializer_of_not_mem {t : Text} (h : '}' ∉ t) :
  dropBraceInitializer t = t
  := by
  unfold dropBraceInitializer
  split
  · rename_i front hfront
    exfalso
    apply h
    rw [← List.mem_reverse, hfront]
    apply List.mem_cons_self
  · rfl

/-- A statement with a parenthesis is set aside. -/
theorem isSkipped_of_mem {t : Text} (h : '(' ∈ t) :
  isSkipped t
  := by
  simp [isSkipped, h]

/-- Statements in front of which no access label stands, that have no initial value, and that are
not set aside. -/
structure Bare (t : Text) : Prop where
  word : ∃ c ∈ t, isWord c
  marks : ∀ c ∈ ['=', '}', '#', '('], c ∉ t
  unlabelled : afterLabel? (Text.collapse t) = none
  keyword : ∀ word ∈ nonDataKeywords, Text.dropKeyword? word.toList (Text.collapse t) = none
  operator : containsWord "operator".toList none (Text.collapse t) = false

namespace Bare

variable {t : Text} (h : Bare t)

include h

theorem not_mem_collapse {c : Char} (hc : c ∈ ['=', '}', '#', '(']) :
  c ∉ Text.collapse t
  := by
  have hsolid : ∀ c ∈ ['=', '}', '#', '('], isBlank c = false := Text.forall_mem_of_all (by decide)
  rw [Text.mem_collapse (hsolid c hc)]
  exact h.marks c hc

theorem isSkipped_collapse :
  isSkipped (Text.collapse t) = false
  := by
  obtain ⟨c, hmem, hc⟩ := h.word
  have hsolid := isBlank_of_isWord hc
  have hnoise : (Text.collapse t).all (fun c => c == '{' || c == '}' || isBlank c) = false := by
    rw [List.all_eq_false]
    use c, (Text.mem_collapse hsolid t).mpr hmem
    have hopen : c ≠ '{' := by
      rintro rfl
      revert hc
      decide
    have hclose : c ≠ '}' := by
      rintro rfl
      revert hc
      decide
    simp [hsolid, hopen, hclose]
  have hcontains : (Text.collapse t).contains '(' = false := by
    rw [List.contains_eq_mem, decide_eq_false_iff_not]
    exact h.not_mem_collapse (by decide)
  have hhash : Text.hasPrefix ['#'] (Text.collapse t) = false :=
    Text.hasPrefix_of_not_mem (h.not_mem_collapse (by decide))
  have hkeyword : nonDataKeywords.any (fun word =>
      (Text.dropKeyword? word.toList (Text.collapse t)).isSome) = false := by
    rw [List.any_eq_false]
    intro word hword
    simp [h.keyword word hword]
  rw [isSkipped, hnoise, h.operator, hcontains, hhash, hkeyword]
  rfl

/-- Such a statement declares the members that it has the form of. -/
theorem ofText_collapse {m : Member} (hm : member? (Text.collapse t) = some m) :
  ofText (Text.collapse t) = .declares m
  := by
  have hempty : (Text.collapse t).isEmpty = false := by
    obtain ⟨c, hmem, hc⟩ := h.word
    rw [List.isEmpty_eq_false_iff_exists_mem]
    use c, (Text.mem_collapse (isBlank_of_isWord hc) t).mpr hmem
  have hclose : '}' ∉ Text.collapse t := h.not_mem_collapse (by decide)
  simp only [ofText, declarator_collapse h.unlabelled (h.marks '=' (by decide))]
  rw [hempty, h.isSkipped_collapse, dropBraceInitializer_of_not_mem hclose, hm]
  rfl

end Bare

/-- A declaration without parentheses is not set aside. -/
theorem bare_render {m : Member} (h : m.WellFormed)
    (hlengths : ∀ length ∈ m.lengths, ∀ c ∈ length, c ∉ marks) (hparen : '(' ∉ m.render) :
  Bare m.render
  where
  word := by
    obtain ⟨c, t, ht, hc⟩ := exists_declarators_eq h.named
    use c
    rw [render, ht]
    simp [isWord_of_isIdentStart hc]
  marks := by
    intro c hc
    simp only [List.mem_cons, List.not_mem_nil, or_false] at hc
    rcases hc with rfl | rfl | rfl | rfl
    · apply h.not_mem_render hlengths (by decide) (by decide)
    · apply h.not_mem_render hlengths (by decide) (by decide)
    · apply h.not_mem_render hlengths (by decide) (by decide)
    · exact hparen
  unlabelled := h.unlabelled
  keyword := h.keyword
  operator := h.operator

/-- A statement that is a declaration gives the declaration, unless there is a parenthesis in
it. -/
theorem ofText_collapse_render {m : Member} (h : m.WellFormed)
    (hlengths : ∀ length ∈ m.lengths, ∀ c ∈ length, c ∉ marks) :
  ofText (Text.collapse m.render) = if '(' ∈ m.render then .skipped else .declares m.tidy
  := by
  have hequals : '=' ∉ m.render := h.not_mem_render hlengths (by decide) (by decide)
  by_cases hparen : '(' ∈ m.render
  · have hmem : '(' ∈ Text.collapse m.render := by rwa [Text.mem_collapse rfl]
    simp only [ofText, declarator_collapse h.unlabelled hequals]
    rw [if_pos hparen, isSkipped_of_mem hmem, Bool.or_true, if_pos rfl]
  · have hmember := member?_collapse_render h.named h.type_words h.type_marks
      (fun _ => h.type_last) hlengths
    rw [if_neg hparen, (bare_render h hlengths hparen).ofText_collapse hmember]

end Statement

end ContractInterface.Header
