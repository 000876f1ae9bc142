import ContractInterface.Header.Catalog
import ContractInterface.Header.StructBody
import ContractInterface.Header.TypeName
import ContractInterface.Proofs.Header.DataMember
import ContractInterface.Proofs.Header.Uncommented
import ContractInterface.Proofs.Text.Run

/-!
# The extent of declared types

A type is declared in a text that is left of the one it is taken from: the name of a type is a
remnant of the type, the type and the lengths of a member are remnants of the body of its struct,
and the arguments of a template are pieces of it.  The name of a struct that is found in a source,
and its body, are pieces of the source.

So no such text is longer than the one it is taken from, and the item of an array template is
shorter than the template.
-/

namespace ContractInterface

namespace Text

theorem cutAt?_eq_some_iff {p : Char → Bool} {t before after : Text} {c : Char} :
  cutAt? p t = some (before, c, after) ↔
    t = before ++ c :: after ∧ p c ∧ ∀ d ∈ before, p d = false
  := by
  induction t generalizing before with
  | nil => simp [cutAt?]
  | cons d t ih =>
      rw [cutAt?]
      by_cases hd : p d
      · rw [if_pos hd]
        constructor
        · intro h
          obtain ⟨rfl, rfl, rfl⟩ : [] = before ∧ d = c ∧ t = after := by simpa using h
          simpa using hd
        · rintro ⟨heq, -, hbefore⟩
          cases before with
          | nil =>
              obtain ⟨rfl, rfl⟩ := List.cons.inj heq
              rfl
          | cons e before =>
              obtain ⟨rfl, -⟩ := List.cons.inj heq
              simp [hbefore d List.mem_cons_self] at hd
      · rw [if_neg hd, Option.map_eq_some_iff]
        constructor
        · rintro ⟨⟨before', c', after'⟩, hcut, heq⟩
          obtain ⟨rfl, rfl, rfl⟩ : d :: before' = before ∧ c' = c ∧ after' = after := by
            simpa using heq
          obtain ⟨rfl, hc, hbefore⟩ := ih.mp hcut
          exact ⟨rfl, hc, by simpa [hd] using hbefore⟩
        · rintro ⟨heq, hc, hbefore⟩
          cases before with
          | nil =>
              obtain ⟨rfl, -⟩ := List.cons.inj heq
              contradiction
          | cons e before =>
              obtain ⟨rfl, rfl⟩ := List.cons.inj heq
              refine ⟨(before, c, after), ih.mpr ⟨rfl, hc, ?_⟩, rfl⟩
              intro e he
              apply hbefore e (List.mem_cons_of_mem d he)

theorem eq_append_of_cutAtLast? {p : Char → Bool} {t before after : Text} {c : Char}
    (h : cutAtLast? p t = some (before, c, after)) :
  t = before ++ c :: after
  := by
  induction t generalizing before with
  | nil => contradiction
  | cons d t ih =>
      rw [cutAtLast?] at h
      split at h
      · rename_i before' c' after' hcut
        obtain ⟨rfl, rfl, rfl⟩ : d :: before' = before ∧ c' = c ∧ after' = after := by
          simpa using h
        rw [ih hcut]
        rfl
      · obtain ⟨-, rfl, rfl, rfl⟩ : p d = true ∧ [] = before ∧ d = c ∧ t = after := by
          simpa using h
        rfl

end Text

namespace Header

open Text

/-! ### The name of a type -/

theorem suffix_dropFront (front : String) (t : Text) :
  dropFront front t <:+ t
  := by
  rw [dropFront]
  rcases h : dropPrefix? front.toList t with _ | rest
  · exact List.suffix_rfl
  · exact suffix_of_dropPrefix? h

theorem suffix_dropElaboration (t : Text) :
  dropElaboration t <:+ t
  := by
  rw [dropElaboration]
  split
  · rename_i rest h
    exact suffix_of_dropPrefix? h
  · apply suffix_dropFront

theorem prefix_dropReference (t : Text) :
  dropReference t <+: t
  := by
  rw [dropReference]
  split
  · rename_i front h
    rw [eq_append_of_dropSuffix? h]
    exact (List.rdropWhile_prefix isBlank _).trans (List.prefix_append front _)
  · exact List.prefix_rfl

theorem infix_typeName (declared : Text) :
  typeName declared <:+: collapse declared
  := by
  apply (suffix_dropFront "QPI::" _).isInfix.trans
  apply (prefix_dropReference _).isInfix.trans
  apply (suffix_dropElaboration _).isInfix.trans
  apply (suffix_dropFront "const " _).isInfix

theorem remnant_typeName (declared : Text) :
  Remnant (typeName declared) declared
  := (Remnant.of_isInfix (infix_typeName declared)).trans (remnant_collapse declared)

/-! ### The arguments of a template -/

namespace CatalogType

theorem exists_of_templateArgument? {name : String} {t argument : Text}
    (h : templateArgument? name t = some argument) :
  ∃ front, t = front ++ '<' :: argument ++ ['>']
  := by
  simp only [templateArgument?, Option.bind_eq_bind, Option.bind_eq_some_iff] at h
  obtain ⟨t₁, h₁, t₂, h₂, h₃⟩ := h
  obtain ⟨front, hfront⟩ := (List.dropWhile_suffix isBlank).trans (suffix_of_dropPrefix? h₁)
  use front
  rw [← hfront, ← trimLeft, eq_append_of_dropPrefix? h₂, eq_append_of_dropSuffix? h₃]
  simp

theorem infix_of_itemArgument? {t item : Text} (h : itemArgument? t = some item) :
  item <:+: t
  := by
  simp only [itemArgument?] at h
  split at h
  · obtain ⟨c, hc, rfl⟩ := Option.map_eq_some_iff.mp h
    have hmem := List.mem_of_find?_eq_some hc
    rw [List.mem_reverse] at hmem
    exact (List.singleton_infix_iff c t).mpr hmem
  · split at h
    · contradiction
    · obtain rfl := Option.some.inj h
      apply infix_trim

theorem infix_of_trimArgument? {t argument : Text} (h : trimArgument? t = some argument) :
  argument <:+: t
  := by
  simp only [trimArgument?] at h
  split at h
  · obtain ⟨c, hc, rfl⟩ := Option.map_eq_some_iff.mp h
    exact (List.singleton_infix_iff c t).mpr (List.mem_of_getLast? hc)
  · obtain rfl := Option.some.inj h
    apply infix_trim

/-- The texts that an entry of the catalog takes over from a type name and that are looked up or
evaluated in turn. -/
def arguments : CatalogType → List Text
  | .fixedArray item length => [item, length]
  | .bitArray bits => [bits]
  | _ => []

theorem infix_of_fixedArray? {argument t : Text} {known : CatalogType}
    (h : fixedArray? t = some known) (hargument : argument ∈ known.arguments) :
  ∃ whole, templateArgument? "Array" t = some whole ∧ argument <:+: whole
  := by
  simp only [fixedArray?, Option.bind_eq_bind, Option.bind_eq_some_iff,
    Option.ite_none_left_eq_some, Option.some.injEq] at h
  obtain ⟨whole, hwhole, ⟨front, comma, back⟩, hcut, -, item, hitem, length, hlength, rfl⟩ := h
  have hparts := eq_append_of_cutAtLast? hcut
  have hfront : item <:+: front := infix_of_itemArgument? hitem
  have hback : length <:+: back := infix_of_trimArgument? hlength
  refine ⟨whole, hwhole, ?_⟩
  simp only [arguments, List.mem_cons, List.not_mem_nil, or_false] at hargument
  rcases hargument with rfl | rfl
  · rw [hparts]
    exact hfront.trans (List.prefix_append front _).isInfix
  · rw [hparts]
    exact hback.trans ((List.suffix_cons comma back).trans (List.suffix_append front _)).isInfix

theorem infix_of_bitArray? {argument t : Text} {known : CatalogType}
    (h : bitArray? t = some known) (hargument : argument ∈ known.arguments) :
  ∃ whole, templateArgument? "BitArray" t = some whole ∧ argument <:+: whole
  := by
  simp only [bitArray?, Option.bind_eq_bind, Option.bind_eq_some_iff,
    Option.ite_none_left_eq_some, Option.some.injEq] at h
  obtain ⟨whole, hwhole, -, bits, hbits, rfl⟩ := h
  obtain rfl := List.mem_singleton.mp hargument
  exact ⟨whole, hwhole, infix_of_trimArgument? hbits⟩

/-- Only templates have arguments. -/
theorem exists_template {argument t : Text} {known : CatalogType} (h : ofName? t = some known)
    (hargument : argument ∈ known.arguments) :
  ∃ name whole, templateArgument? name t = some whole ∧ argument <:+: whole
  := by
  obtain ⟨recognize, hmem, hknown⟩ := List.exists_of_findSome?_eq_some h
  simp only [recognizers, List.mem_cons, List.not_mem_nil, or_false] at hmem
  rcases hmem with rfl | rfl | rfl | rfl | rfl | rfl | rfl | rfl
  · exact ⟨_, infix_of_fixedArray? hknown hargument⟩
  · exact ⟨_, infix_of_bitArray? hknown hargument⟩
  · obtain ⟨_, -, hknown⟩ := List.exists_of_findSome?_eq_some hknown
    obtain ⟨length, -, rfl⟩ := Option.map_eq_some_iff.mp hknown
    contradiction
  · obtain ⟨length, -, rfl⟩ := Option.map_eq_some_iff.mp hknown
    contradiction
  · obtain ⟨length, -, rfl⟩ := Option.map_eq_some_iff.mp hknown
    contradiction
  · obtain ⟨type, -, rfl⟩ := Option.map_eq_some_iff.mp hknown
    contradiction
  · obtain ⟨type, -, rfl⟩ := Option.map_eq_some_iff.mp hknown
    contradiction
  · simp only [proposalData?, Option.bind_eq_bind, Option.bind_eq_some_iff,
      Option.ite_none_right_eq_some, Option.some.injEq] at hknown
    obtain ⟨_, -, -, rfl⟩ := hknown
    contradiction

/-- An argument is a piece of the type name, and shorter. -/
theorem infix_of_ofName? {argument t : Text} {known : CatalogType} (h : ofName? t = some known)
    (hargument : argument ∈ known.arguments) :
  argument <:+: t ∧ argument.length < t.length
  := by
  obtain ⟨name, whole, hwhole, hpiece⟩ := exists_template h hargument
  obtain ⟨front, rfl⟩ := exists_of_templateArgument? hwhole
  constructor
  · apply hpiece.trans
    exact ⟨front ++ ['<'], ['>'], by simp⟩
  · have hlength := hpiece.length_le
    simp
    omega

end CatalogType

/-! ### The declaration of a member -/

namespace Statement

theorem suffix_of_afterLabel? {t rest : Text} (h : afterLabel? t = some rest) :
  rest <:+ t
  := by
  obtain ⟨word, -, hword⟩ := List.exists_of_findSome?_eq_some h
  simp only [Option.bind_eq_bind, Option.bind_eq_some_iff, Option.some.injEq] at hword
  obtain ⟨t₁, h₁, t₂, h₂, rfl⟩ := hword
  apply (List.dropWhile_suffix isBlank).trans
  apply (suffix_of_dropPrefix? h₂).trans
  apply (List.dropWhile_suffix isBlank).trans (suffix_of_dropPrefix? h₁)

theorem suffix_dropLabels (n : Nat) (t : Text) :
  dropLabels n t <:+ t
  := by
  fun_induction dropLabels n t with
  | case1 t => exact List.suffix_rfl
  | case2 n t rest h ih => exact ih.trans (suffix_of_afterLabel? h)
  | case3 n t h => exact List.suffix_rfl

theorem prefix_beforeInitializer (before : Option Char) (t : Text) :
  beforeInitializer before t <+: t
  := by
  rcases beforeInitializer_cases before t with h | ⟨back, h⟩
  · rw [h]
  · rw [eq_comm] at h
    exact ⟨_, h⟩

theorem infix_declarator (statement : Text) :
  declarator statement <:+: statement
  := by
  apply (infix_trim _).trans
  apply (prefix_beforeInitializer none _).isInfix.trans
  apply (suffix_dropLabels _ statement).isInfix

theorem infix_dropBraceInitializer (t : Text) :
  dropBraceInitializer t <:+: t
  := by
  rw [dropBraceInitializer]
  split
  · rename_i front hfront
    split
    · rename_i inner front' hcut
      obtain ⟨rfl, -⟩ := cutAt?_eq_some_iff.mp hcut
      rw [List.reverse_eq_iff] at hfront
      apply (infix_trim _).trans
      rw [hfront]
      exact ⟨[], ('}' :: inner ++ ['{']).reverse, by simp⟩
    · exact List.infix_rfl
  · exact List.infix_rfl

/-- The lengths between brackets are pieces of the text from the first bracket on. -/
theorem infix_of_lengths? {current : Option Text} {t : Text} {lengths : List Text}
    (h : lengths? current t = some lengths) :
  ∀ length ∈ lengths, length <:+: (current.getD []).reverse ++ t
  := by
  fun_induction lengths? current t generalizing lengths with
  | case1 =>
      obtain rfl := Option.some.inj h
      simp
  | case2 => contradiction
  | case3 c t hc ih =>
      intro length hlength
      exact (ih h length hlength).trans (List.suffix_cons c t).isInfix
  | case4 t hc ih =>
      intro length hlength
      exact (ih h length hlength).trans (List.suffix_cons '[' t).isInfix
  | case5 => contradiction
  | case6 current t ih =>
      obtain ⟨rest, hrest, rfl⟩ := Option.map_eq_some_iff.mp h
      rw [List.forall_mem_cons]
      constructor
      · apply (infix_trim _).trans
        exact (List.prefix_append _ _).isInfix
      · intro length hlength
        apply (ih hrest length hlength).trans
        exact ((List.suffix_cons ']' t).trans (List.suffix_append _ _)).isInfix
  | case7 current c t hc ih =>
      intro length hlength
      simpa using ih h length hlength

theorem infix_of_arrayParts? {t name : Text} {lengths : List Text}
    (h : arrayParts? t = some (name, lengths)) :
  ∀ length ∈ lengths, length <:+: t
  := by
  simp only [arrayParts?, Option.bind_eq_bind, Option.bind_eq_some_iff] at h
  obtain ⟨u, hu, ⟨ident, v⟩, hv, ls, hlengths, h⟩ := h
  cases ls with
  | nil => contradiction
  | cons l ls =>
      obtain ⟨-, rfl⟩ := Prod.mk.inj (Option.some.inj h)
      intro length hlength
      apply (infix_of_lengths? hlengths length hlength).trans
      exact ((suffix_of_takeIdent? hv).trans (suffix_of_afterBlanks? hu)).isInfix

theorem infix_of_member? {t : Text} {m : Member} (h : member? t = some m) :
  m.type <:+: t ∧ ∀ length ∈ m.lengths, length <:+: t
  := by
  unfold member? at h
  split at h
  · rename_i type name lengths harray
    obtain rfl := Option.some.inj h
    obtain ⟨rest, rfl, hparts⟩ := afterType?_eq_some harray
    constructor
    · exact (List.prefix_append type rest).isInfix
    · intro length hlength
      have hpiece := infix_of_arrayParts? hparts length hlength
      exact hpiece.trans (List.suffix_append type rest).isInfix
  · obtain ⟨⟨type, names⟩, hplain, rfl⟩ := Option.map_eq_some_iff.mp h
    obtain ⟨rest, rfl, -⟩ := afterType?_eq_some hplain
    constructor
    · exact (List.prefix_append type rest).isInfix
    · simp [Member.lengths]

/-- The type and the lengths of a member are pieces of the statement. -/
theorem infix_of_ofText {statement : Text} {m : Member} (h : ofText statement = .declares m) :
  m.type <:+: statement ∧ ∀ length ∈ m.lengths, length <:+: statement
  := by
  simp only [ofText] at h
  split at h
  · contradiction
  · split at h
    · rename_i m' hm
      obtain rfl := Statement.declares.inj h
      have hpiece : dropBraceInitializer (declarator statement) <:+: statement :=
        (infix_dropBraceInitializer _).trans (infix_declarator statement)
      obtain ⟨htype, hlengths⟩ := infix_of_member? hm
      exact ⟨htype.trans hpiece, fun length hlength => (hlengths length hlength).trans hpiece⟩
    · contradiction

end Statement

/-! ### The statements of a body -/

theorem thinned_intercalate_lines {f : Text → Text} {lines : List Text}
    (hf : ∀ line ∈ lines, f line = line ∨ f line = []) :
  Thinned (['\n'].intercalate (lines.map f)) (['\n'].intercalate lines)
  := by
  induction lines with
  | nil => exact .done []
  | cons line lines ih =>
      obtain ⟨hline, hlines⟩ := List.forall_mem_cons.mp hf
      cases lines with
      | nil =>
          rcases hline with hline | hline
          · simpa [hline] using Thinned.refl line
          · simpa [hline] using Thinned.done line
      | cons line' lines =>
          have ih := ih hlines
          rw [List.map_cons, List.map_cons, List.intercalate_cons_cons,
            List.intercalate_cons_cons, ← List.map_cons]
          rcases hline with hline | hline
          · rw [hline]
            exact ih.append_left _
          · rw [hline, List.nil_append]
            exact .blank rfl (by simp) ih

theorem thinned_blankDirectives (t : Text) :
  Thinned (blankDirectives t) t
  := by
  have hlines : ['\n'].intercalate (splitWhere (· == '\n') t) = t := by
    rw [splitWhere_eq_splitOnP, ← List.splitOn_eq_splitOnP, List.intercalate_splitOn]
  have hblank : ∀ line ∈ splitWhere (· == '\n') t,
      (if isDirective line then [] else line) = line ∨
        (if isDirective line then [] else line) = [] := by
    intro line _
    split
    · exact .inr rfl
    · exact .inl rfl
  have hthinned := thinned_intercalate_lines hblank
  rwa [hlines] at hthinned

theorem infix_of_mem_splitFrom {depth : Nat} {current t statement : Text}
    (h : statement ∈ splitFrom depth current t) :
  statement <:+: current.reverse ++ t
  := by
  fun_induction splitFrom depth current t with
  | case1 depth current =>
      obtain rfl := List.mem_singleton.mp h
      simp
  | case2 depth current c t _ ih =>
      rcases List.mem_cons.mp h with rfl | h
      · exact (List.prefix_append _ _).isInfix
      · exact (ih h).trans ((List.suffix_cons c t).trans (List.suffix_append _ _)).isInfix
  | case3 depth current t _ ih => simpa using ih h
  | case4 depth current t _ _ _ ih =>
      rcases List.mem_cons.mp h with rfl | h
      · exact ⟨[], t, by simp⟩
      · exact (ih h).trans ((List.suffix_cons '}' t).trans (List.suffix_append _ _)).isInfix
  | case5 depth current t _ _ _ ih => simpa using ih h
  | case6 depth current c t _ _ _ ih => simpa using ih h

/-- The statements of a body are left of it. -/
theorem remnant_of_mem_statements {body statement : Text} (h : statement ∈ statements body) :
  Remnant statement body
  := by
  obtain ⟨hmap, -⟩ := List.mem_filter.mp h
  obtain ⟨piece, hpiece, rfl⟩ := List.mem_map.mp hmap
  apply (remnant_collapse piece).trans
  apply (Remnant.of_isInfix (infix_of_mem_splitFrom hpiece)).trans
  exact ((thinned_blankDirectives _).trans (thinned_stripComments body)).remnant

/-! ### Structs in a source -/

theorem suffix_of_mem_afterSomeBlanks {t rest : Text} (h : rest ∈ afterSomeBlanks t) :
  rest <:+ t
  := by
  induction t with
  | nil => contradiction
  | cons c t ih =>
      rw [afterSomeBlanks] at h
      split at h
      · rcases List.mem_append.mp h with h | h
        · apply (ih h).trans (List.suffix_cons c t)
        · obtain rfl := List.mem_singleton.mp h
          apply List.suffix_cons
      · contradiction

/-- A struct is found by its name, and what follows its opening brace is the rest of the text. -/
theorem infix_of_afterName? {name t body : Text} (h : afterName? name t = some body) :
  name <:+: t ∧ body <:+ t
  := by
  simp only [afterName?, Option.bind_eq_bind, Option.bind_eq_some_iff,
    Option.ite_none_left_eq_some] at h
  obtain ⟨rest, hrest, -, h⟩ := h
  have ht := Text.eq_append_of_dropPrefix? hrest
  split at h
  · rename_i inner body' hcut
    obtain rfl := Option.some.inj h
    constructor
    · use [], rest
      simp [ht]
    · rw [ht, (cutAt?_eq_some_iff.mp hcut).1]
      apply List.IsSuffix.trans _ (List.suffix_append name _)
      apply (List.suffix_cons '{' body').trans (List.suffix_append inner _)
  · contradiction

theorem infix_of_structMatcher {name : Text} {before : Option Char} {t body : Text}
    (h : structMatcher name before t = some ((), body)) :
  name <:+: t ∧ body <:+ t
  := by
  simp only [structMatcher, Option.ite_none_left_eq_some, Option.bind_eq_bind,
    Option.bind_eq_some_iff, Option.some.injEq, Prod.mk.injEq, true_and] at h
  obtain ⟨-, rest, hrest, body', hbody, rfl⟩ := h
  obtain ⟨rest', hrest', hname⟩ := List.exists_of_findSome?_eq_some hbody
  obtain ⟨hpiece, hsuffix⟩ := infix_of_afterName? hname
  have hblanks := suffix_of_mem_afterSomeBlanks hrest'
  have hword : rest <:+ t := suffix_of_dropPrefix? hrest
  constructor
  · apply hpiece.trans (hblanks.trans hword).isInfix
  · apply hsuffix.trans (hblanks.trans hword)

theorem infix_of_scanFirstFrom? {name : Text} {before : Option Char} {t body : Text}
    (h : Text.scanFirstFrom? (structMatcher name) before t = some ((), body)) :
  name <:+: t ∧ body <:+ t
  := by
  induction t generalizing before with
  | nil => contradiction
  | cons c t ih =>
      rw [Text.scanFirstFrom?] at h
      split at h
      · rename_i found hfound
        obtain rfl := Option.some.inj h
        apply infix_of_structMatcher hfound
      · obtain ⟨hpiece, hsuffix⟩ := ih h
        constructor
        · apply hpiece.trans (List.suffix_cons c t).isInfix
        · apply hsuffix.trans (List.suffix_cons c t)

/-- The name of a struct and its body are pieces of the source. -/
theorem infix_of_structBody? {source name body : Text} (h : structBody? source name = some body) :
  name <:+: source ∧ body <:+: source
  := by
  simp only [structBody?, Option.bind_eq_bind, Option.bind_eq_some_iff, Option.some.injEq] at h
  obtain ⟨⟨⟨⟩, rest⟩, hscan, length, -, rfl⟩ := h
  obtain ⟨hpiece, hsuffix⟩ := infix_of_scanFirstFrom? hscan
  use hpiece
  apply (List.take_prefix length rest).isInfix.trans hsuffix.isInfix

end Header

end ContractInterface
