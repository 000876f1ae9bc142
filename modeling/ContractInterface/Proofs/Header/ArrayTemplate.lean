import ContractInterface.Header.Catalog
import ContractInterface.Header.TypeName
import ContractInterface.Proofs.Header.SetAside

/-!
# Array templates

An array type is written as a template with an item type and a length, `Array<item, length>`, and
the item type may be an array type again.  The catalog recognises such a name: the length stands
behind the last comma, so neither commas nor angle brackets in the item type matter, and the item
type and the length are found with their blanks collapsed.

A type whose text has none of the characters, labels and keywords for which a statement is set
aside makes array templates that have none either, and declarations that are read as such.
-/

namespace ContractInterface

namespace Text

theorem cutAtLast?_eq_none {p : Char → Bool} {t : Text} (h : ∀ c ∈ t, p c = false) :
  cutAtLast? p t = none
  := by
  induction t with
  | nil => rfl
  | cons c t ih =>
      obtain ⟨hc, ht⟩ := List.forall_mem_cons.mp h
      rw [cutAtLast?, ih ht]
      simp [hc]

theorem cutAtLast?_append {p : Char → Bool} {c : Char} (hc : p c) {back : Text}
    (hback : ∀ d ∈ back, p d = false) (front : Text) :
  cutAtLast? p (front ++ c :: back) = some (front, c, back)
  := by
  induction front with
  | nil =>
      rw [List.nil_append, cutAtLast?, cutAtLast?_eq_none hback]
      simp [hc]
  | cons d front ih => rw [List.cons_append, cutAtLast?, ih]

theorem dropSuffix?_append (front word : Text) :
  dropSuffix? word (front ++ word) = some front
  := by
  rw [dropSuffix?, List.reverse_append, dropPrefix?_append]
  simp

/-- Of the blanks only spaces are left. -/
theorem solid_of_mem_squeeze {c : Char} {t : Text} (h : c ∈ squeeze t) :
  c = ' ' ∨ isBlank c = false
  := by
  induction t with
  | nil => contradiction
  | cons d t ih =>
      by_cases hd : isBlank d
      · rw [squeeze_cons_blank hd] at h
        rcases List.mem_cons.mp h with rfl | h
        · exact .inl rfl
        · exact ih ((List.dropWhile_suffix isBlank).subset h)
      · have hd : isBlank d = false := by simpa using hd
        rw [squeeze_cons_solid hd] at h
        rcases List.mem_cons.mp h with rfl | h
        · exact .inr hd
        · exact ih h

theorem not_mem_squeeze {c : Char} {t : Text} (h : c ∉ t) (hspace : c ≠ ' ') :
  c ∉ squeeze t
  := by
  intro hmem
  have hsolid := (solid_of_mem_squeeze hmem).resolve_left hspace
  exact h ((mem_squeeze hsolid t).mp hmem)

end Text

namespace Header

open Text

/-! ### The text of an array template -/

/-- An array type as a template. -/
def arrayTemplate (item length : Text) : Text :=
  "Array".toList ++ '<' :: (item ++ ',' :: ' ' :: (length ++ ['>']))

/-- To collapse an array template is to squeeze its arguments. -/
theorem collapse_arrayTemplate (item length : Text) :
  collapse (arrayTemplate item length) =
    "Array".toList ++ '<' :: ((squeeze item ++ ',' :: squeeze (' ' :: length)) ++ ['>'])
  := by
  have hname : squeeze "Array".toList = "Array".toList := by decide
  have htrim : trimLeft "Array".toList = "Array".toList := by decide
  have hsqueeze :=
    calc
      squeeze (arrayTemplate item length)
        = squeeze "Array".toList ++ '<' :: squeeze (item ++ ',' :: ' ' :: (length ++ ['>'])) :=
          squeeze_append_solid rfl _ _
      _ = "Array".toList ++ '<' :: (squeeze item ++ ',' :: squeeze (' ' :: length ++ ['>'])) := by
          rw [hname, squeeze_append_solid rfl item]
          rfl
      _ = "Array".toList ++ '<' :: ((squeeze item ++ ',' :: squeeze (' ' :: length)) ++ ['>']) := by
          rw [squeeze_append_solid rfl (' ' :: length), List.append_assoc]
          rfl
  rw [← trim_squeeze, hsqueeze, trim_append_solid rfl rfl, htrim]

/-- The characters of an array template. -/
theorem not_mem_arrayTemplate {item length : Text} {c : Char} (hitem : c ∉ item)
    (hlength : c ∉ length) (hown : c ∉ "Array".toList ++ ['<', ',', ' ', '>']) :
  c ∉ arrayTemplate item length
  := by
  rw [List.mem_append, not_or] at hown
  intro hmem
  rcases List.mem_append.mp hmem with hmem | hmem
  · exact hown.1 hmem
  · apply hown.2
    simpa only [List.mem_cons, List.mem_append, List.not_mem_nil, or_false, false_or, hitem,
      hlength] using hmem

/-- The runs of word characters in an array template. -/
theorem runs_arrayTemplate (item length : Text) :
  runs (arrayTemplate item length) =
    runs "Array".toList ++ (runs item ++ ([] :: runs length ++ [[]]))
  := by
  have hlength : runs (' ' :: (length ++ ['>'])) = [] :: runs length ++ [[]] :=
    (runs_append rfl (' ' :: length) []).trans (by rw [runs_cons_boundary rfl]; rfl)
  have hitem : runs (item ++ ',' :: ' ' :: (length ++ ['>'])) =
      runs item ++ runs (' ' :: (length ++ ['>'])) := runs_append rfl _ _
  rw [← hlength, ← hitem]
  exact runs_append rfl _ _

/-- Nothing is taken off an array template to find its name. -/
theorem typeName_arrayTemplate (item length : Text) :
  typeName (arrayTemplate item length) = collapse (arrayTemplate item length)
  := by
  rw [typeName, collapse_arrayTemplate]
  generalize squeeze item ++ ',' :: squeeze (' ' :: length) = inner
  have hconst : dropFront "const " ("Array".toList ++ '<' :: (inner ++ ['>'])) =
      "Array".toList ++ '<' :: (inner ++ ['>']) := rfl
  have helaboration : dropElaboration ("Array".toList ++ '<' :: (inner ++ ['>'])) =
      "Array".toList ++ '<' :: (inner ++ ['>']) := rfl
  have hreference : dropReference ("Array".toList ++ '<' :: (inner ++ ['>'])) =
      "Array".toList ++ '<' :: (inner ++ ['>']) := by
    simp [dropReference, dropSuffix?, dropPrefix?]
  rw [hconst, helaboration, hreference]
  rfl

/-! ### Recognising an array template -/

theorem itemArgument?_squeeze {t : Text} (h : words t ≠ []) :
  CatalogType.itemArgument? (squeeze t) = some (collapse t)
  := by
  have hline : '\n' ∉ collapse t := by
    obtain ⟨front, back, -, -, hsqueeze⟩ := exists_eq_trim (squeeze t)
    rw [trim_squeeze] at hsqueeze
    intro hmem
    have hsolid : '\n' = ' ' ∨ isBlank '\n' = false := by
      apply solid_of_mem_squeeze (t := t)
      rw [hsqueeze]
      simp [hmem]
    revert hsolid
    decide
  rw [CatalogType.itemArgument?, trim_squeeze]
  simp [collapse_ne_nil h, hline]

theorem trimArgument?_squeeze {t : Text} (h : words t ≠ []) :
  CatalogType.trimArgument? (squeeze t) = some (collapse t)
  := by
  rw [CatalogType.trimArgument?, trim_squeeze]
  simp [collapse_ne_nil h]

theorem templateArgument?_append (name : String) (inner : Text) :
  CatalogType.templateArgument? name (name.toList ++ '<' :: (inner ++ ['>'])) = some inner
  := by
  have hangle : trimLeft ('<' :: (inner ++ ['>'])) = '<' :: (inner ++ ['>']) :=
    trimLeft_cons_solid rfl _
  have hopen : dropPrefix? ['<'] ('<' :: (inner ++ ['>'])) = some (inner ++ ['>']) :=
    dropPrefix?_append ['<'] _
  simp [CatalogType.templateArgument?, dropPrefix?_append, hangle, hopen, dropSuffix?_append]

theorem ofName?_arrayTemplate {item length : Text} (hitem : words item ≠ [])
    (hlength : words length ≠ []) (hmarks : ∀ c ∈ length, c ∉ [',', '<', '>']) :
  CatalogType.ofName? (typeName (arrayTemplate item length)) =
    some (.fixedArray (collapse item) (collapse length))
  := by
  have hchars : ∀ c ∈ squeeze (' ' :: length), c ∉ [',', '<', '>'] := by
    intro c hc hmark
    have hspace : ∀ c ∈ [',', '<', '>'], c ≠ ' ' := forall_mem_of_all (by decide)
    have hmem : c ∉ ' ' :: length := by
      rw [List.mem_cons, not_or]
      exact ⟨hspace c hmark, fun hmem => hmarks c hmem hmark⟩
    exact not_mem_squeeze hmem (hspace c hmark) hc
  have hcut : cutAtLast? (· == ',') (squeeze item ++ ',' :: squeeze (' ' :: length)) =
      some (squeeze item, ',', squeeze (' ' :: length)) := by
    apply cutAtLast?_append (by rfl)
    intro c hc
    rw [beq_eq_false_iff_ne]
    rintro rfl
    exact hchars ',' hc (by decide)
  have hangle : (squeeze (' ' :: length)).any CatalogType.isAngle = false := by
    rw [List.any_eq_false]
    intro c hc
    have hmark := hchars c hc
    simp only [List.mem_cons, List.not_mem_nil, or_false, not_or] at hmark
    simp [CatalogType.isAngle, hmark]
  have hwords : words (' ' :: length) ≠ [] := by rwa [words_cons_blank rfl]
  have hcollapse : collapse (' ' :: length) = collapse length := collapse_cons_blank rfl length
  have hfixed : CatalogType.fixedArray? (typeName (arrayTemplate item length)) =
      some (.fixedArray (collapse item) (collapse length)) := by
    rw [typeName_arrayTemplate, collapse_arrayTemplate, CatalogType.fixedArray?,
      templateArgument?_append]
    simp only [Option.bind_eq_bind, Option.bind_some, hcut, hangle, Bool.false_eq_true, if_false,
      itemArgument?_squeeze hitem, trimArgument?_squeeze hwords, hcollapse]
  rw [CatalogType.ofName?, CatalogType.recognizers, List.findSome?_cons, hfixed]

/-! ### Types and lengths in declarations -/

/-- Texts that can stand for the type in a declaration: there are words in them, but none of the
characters, labels and keywords for which a statement is set aside. -/
structure PlainType (type : Text) : Prop where
  words : words type ≠ []
  marks : ∀ c ∈ type, c ∉ '(' :: Member.marks
  unlabelled : Statement.afterLabel? (collapse type) = none
  keyword : ∀ word ∈ Statement.nonDataKeywords, dropKeyword? word.toList (collapse type) = none
  operator : "operator".toList ∉ runs type

/-- Texts that can stand for the length of an array in both spellings. -/
structure PlainLength (length : Text) : Prop where
  marks : ∀ c ∈ length, c ∉ ['(', ',', '<', '>'] ++ Member.marks
  operator : "operator".toList ∉ runs length

theorem PlainLength.not_mem {length : Text} (h : PlainLength length) {c : Char}
    (hc : c ∈ '(' :: Member.marks) :
  c ∉ length
  := by
  intro hmem
  apply h.marks c hmem
  simp only [List.mem_append, List.mem_cons] at hc ⊢
  tauto

theorem isWord_of_mem_nonDataKeywords {word : String} (h : word ∈ Statement.nonDataKeywords) :
  ∀ c ∈ word.toList, isWord c
  := by
  have hwords : ∀ word ∈ Statement.nonDataKeywords, word.toList.all isWord := by decide
  exact List.all_eq_true.mp (hwords word h)

theorem takeWhile_collapse_arrayTemplate (item length : Text) :
  (collapse (arrayTemplate item length)).takeWhile isWord = "Array".toList
  := by
  rw [collapse_arrayTemplate]
  exact (takeWhile_append_boundary (forall_mem_of_all (by decide)) rfl).1

/-- Array templates can stand for types again. -/
theorem PlainType.arrayTemplate {item length : Text} (hitem : PlainType item)
    (hlength : PlainLength length) :
  PlainType (arrayTemplate item length)
  where
  words := words_cons_ne_nil rfl _
  marks := by
    intro c hc hmark
    have hown : ∀ c ∈ '(' :: Member.marks, c ∉ "Array".toList ++ ['<', ',', ' ', '>'] :=
      forall_mem_of_all (by decide)
    apply not_mem_arrayTemplate _ _ (hown c hmark) hc
    · intro hmem
      exact hitem.marks c hmem hmark
    · intro hmem
      exact hlength.not_mem hmark hmem
  unlabelled := by
    apply Statement.afterLabel?_of_takeWhile
    rw [takeWhile_collapse_arrayTemplate]
    decide
  keyword := by
    intro word hword
    rw [dropKeyword?_eq_none_iff (isWord_of_mem_nonDataKeywords hword),
      takeWhile_collapse_arrayTemplate]
    have hne : ∀ word ∈ Statement.nonDataKeywords, "Array".toList ≠ word.toList := by decide
    exact hne word hword
  operator := by
    have hname : "operator".toList ∉ runs "Array".toList := by decide
    have hne : "operator".toList ≠ [] := by decide
    rw [runs_arrayTemplate]
    simp only [List.mem_append, List.mem_cons, List.not_mem_nil, or_false, not_or]
    exact ⟨hname, hitem.operator, ⟨hne, hlength.operator⟩, hne⟩

/-- An array type as nested templates, with the lengths from the outermost to the innermost. -/
def nestedTemplate (type : Text) (lengths : List Text) : Text :=
  lengths.foldr (fun length item => Header.arrayTemplate item length) type

theorem PlainType.nestedTemplate {type : Text} (htype : PlainType type) {lengths : List Text}
    (hlengths : ∀ length ∈ lengths, PlainLength length) :
  PlainType (nestedTemplate type lengths)
  := by
  induction lengths with
  | nil => exact htype
  | cons length lengths ih =>
      obtain ⟨hlength, hrest⟩ := List.forall_mem_cons.mp hlengths
      exact (ih hrest).arrayTemplate hlength

theorem getLast?_collapse_arrayTemplate (item length : Text) :
  (collapse (arrayTemplate item length)).getLast? = some '>'
  := by
  rw [collapse_arrayTemplate, ← List.cons_append, ← List.append_assoc, List.getLast?_concat]

section Declaration

variable {m : Member} (hnamed : m.Named) (htype : PlainType m.type)
  (hlengths : ∀ length ∈ m.lengths, PlainLength length)

include hnamed htype hlengths

theorem PlainType.not_mem_render {c : Char} (hc : c ∈ '(' :: Member.marks)
    (hbracket : c ∉ ['[', ']']) :
  c ∉ m.render
  := by
  obtain ⟨hword, hown⟩ := Member.isWord_and_not_mem_of_mem_marks hc hbracket
  apply Member.not_mem_render hnamed hword hown
  · intro hmem
    exact htype.marks c hmem hc
  · intro length hlength
    exact (hlengths length hlength).not_mem hc

/-- A declaration of such a type is read as a declaration. -/
theorem PlainType.bare_render (hnames : ∀ name ∈ m.names, name ≠ "operator".toList) :
  Statement.Bare m.render
  := by
  have hcollapse := collapse_render hnamed htype.words
  obtain ⟨c, rest, hrest, hc⟩ := exists_declarators_eq (Member.named_squeezed hnamed)
  have hword := isWord_of_isIdentStart hc
  rw [hrest] at hcollapse
  constructor
  · use c
    rw [← mem_collapse (isBlank_of_isWord hword), hcollapse]
    simp [hword]
  · have hmarks : ∀ c ∈ ['=', '}', '#', '('], c ∈ '(' :: Member.marks ∧ c ∉ ['[', ']'] :=
      forall_mem_of_all (by decide)
    intro d hd
    exact htype.not_mem_render hnamed hlengths (hmarks d hd).1 (hmarks d hd).2
  · rw [hcollapse]
    exact Statement.afterLabel?_append htype.unlabelled (by simpa using htype.words) hword rest
  · intro word hmem
    have hwords := isWord_of_mem_nonDataKeywords hmem
    have hfirst := (dropKeyword?_eq_none_iff hwords).mp (htype.keyword word hmem)
    have hstop : ∀ d ∈ (' ' :: c :: rest).head?, isWord d = false := by
      rintro d ⟨⟩
      decide
    rwa [dropKeyword?_eq_none_iff hwords, hcollapse, (takeWhile_append_stop hstop _).1]
  · apply Statement.containsWord_of_not_mem (forall_mem_of_all (by decide))
    rw [mem_runs_congr (by decide) (words_collapse m.render), Member.render, runs_append rfl,
      List.mem_append, not_or]
    refine ⟨htype.operator, ?_⟩
    intro hmem
    rcases Member.mem_runs_declarators hnamed (by decide) hmem with
      ⟨name, hname, hmem⟩ | ⟨length, hlength, hmem⟩
    · have hident := isWord_of_isIdent (Member.isIdent_of_named hnamed name hname)
      rw [runs_of_forall hident, List.mem_singleton] at hmem
      exact hnames name hname hmem.symm
    · exact (hlengths length hlength).operator hmem

/-- The members that a declaration of such a type declares. -/
theorem PlainType.ofText_collapse_render (hnames : ∀ name ∈ m.names, name ≠ "operator".toList)
    (hlast : m.lengths = [] → (collapse m.type).getLast? ≠ some ',') :
  Statement.ofText (collapse m.render) = .declares m.tidy
  := by
  apply (htype.bare_render hnamed hlengths hnames).ofText_collapse
  apply Statement.member?_collapse_render hnamed htype.words _ hlast
  · intro length hlength c hc hmark
    exact (hlengths length hlength).not_mem (List.mem_cons_of_mem _ hmark) hc
  · intro c hc hmark
    exact htype.marks c hc (List.mem_cons_of_mem _ hmark)

/-- A body that holds such a declaration has it as its statement. -/
theorem PlainType.statements_render :
  statements (m.render ++ [';']) = [collapse m.render]
  := by
  have hslash : '/' ∉ m.render ++ [';'] := by
    have hrender := htype.not_mem_render hnamed hlengths (c := '/') (by decide) (by decide)
    simp [hrender]
  have hwords : Text.words m.render ≠ [] := by
    rw [Member.render, words_append rfl]
    simp [htype.words]
  apply statements_singleton (stripComments_of_not_mem hslash) _ _ hwords
  · exact htype.not_mem_render hnamed hlengths (by decide) (by decide)
  · have hmarks : ∀ c ∈ statementMarks, c ∈ '(' :: Member.marks ∧ c ∉ ['[', ']'] :=
      forall_mem_of_all (by decide)
    intro c hc hmark
    exact htype.not_mem_render hnamed hlengths (hmarks c hmark).1 (hmarks c hmark).2 hc

end Declaration

end Header

end ContractInterface
