import ContractInterface.Header.Catalog
import ContractInterface.Proofs.Header.SetAside
import ContractInterface.Proofs.Header.StructDef
import ContractInterface.Text.Numeral

/-!
# Canonical structs

A canonical struct has an identifier as its name, and its members are of primitive types or of
types from a list of earlier structs, with numerals as lengths.  Canonical structs are found by
their names, their members are well-formed declarations, and the statements of their bodies are
these declarations as they are written.
-/

namespace ContractInterface.Header

/-! ### Reserved words -/

/-- The keywords that no name may be: those that start a struct, and those that set a statement
aside. -/
def reservedWords : List Text :=
  ("operator" :: Statement.nonDataKeywords).map String.toList

theorem isWord_of_mem_reservedWords {word : Text} (h : word ∈ reservedWords) :
  ∀ c ∈ word, isWord c
  := by
  have hwords : ∀ word ∈ reservedWords, word.all isWord := by decide
  apply List.all_eq_true.mp (hwords word h)

/-- Texts in which no reserved word stands between word boundaries. -/
def Unreserved (t : Text) : Prop :=
  ∀ run ∈ Text.runs t, run ∉ reservedWords

theorem unreserved_nil :
  Unreserved []
  := by
  unfold Unreserved
  decide

theorem unreserved_append {c : Char} (hc : isWord c = false) {s t : Text} :
  Unreserved (s ++ c :: t) ↔ Unreserved s ∧ Unreserved t
  := by
  rw [Unreserved, Text.runs_append hc]
  constructor
  · intro h
    constructor
    · intro run hrun
      apply h run (List.mem_append_left _ hrun)
    · intro run hrun
      apply h run (List.mem_append_right _ hrun)
  · rintro ⟨hs, ht⟩ run hrun
    rcases List.mem_append.mp hrun with hrun | hrun
    · apply hs run hrun
    · apply ht run hrun

theorem unreserved_cons {c : Char} (hc : isWord c = false) {t : Text} (h : Unreserved t) :
  Unreserved (c :: t)
  := (unreserved_append hc).mpr ⟨unreserved_nil, h⟩

theorem unreserved_of_forall {t : Text} (hword : ∀ c ∈ t, isWord c) (h : t ∉ reservedWords) :
  Unreserved t
  := by
  rw [Unreserved, Text.runs_of_forall hword]
  simpa using h

theorem unreserved_of_digits {t : Text} (h : ∀ c ∈ t, c.isDigit) :
  Unreserved t
  := by
  have hwords : ∀ word ∈ reservedWords, word.all Char.isDigit = false := by decide
  apply unreserved_of_forall
  · intro c hc
    apply isWord_of_isDigit (h c hc)
  · intro hmem
    have hdigits := hwords t hmem
    rw [List.all_eq_true.mpr h] at hdigits
    contradiction

/-! ### Types and lengths -/

/-- Texts that can stand for a type: words with one space between neighbours, none of them
reserved. -/
structure IsTypeName (t : Text) : Prop where
  collapsed : Text.collapse t = t
  words : Text.words t ≠ []
  chars : ∀ c ∈ t, isWord c ∨ c = ' '
  unreserved : Unreserved t

theorem isTypeName_of_isIdent {t : Text} (h : Text.isIdent t) (hreserved : t ∉ reservedWords) :
  IsTypeName t where
  collapsed := Text.collapse_of_solid (Text.ne_nil_of_isIdent h) (Text.solid_of_isIdent h)
  words := by simp [Text.words_of_solid (Text.ne_nil_of_isIdent h) (Text.solid_of_isIdent h)]
  chars := fun c hc => .inl (Text.isWord_of_isIdent h c hc)
  unreserved := unreserved_of_forall (Text.isWord_of_isIdent h) hreserved

theorem isTypeName_of_primitive {t : Text} {type : TypeDesc}
    (h : (String.ofList t, type) ∈ CatalogType.primitives) :
  IsTypeName t
  := by
  have hall : ∀ spelling ∈ CatalogType.primitives.map fun entry => entry.1.toList,
      Text.collapse spelling = spelling ∧ Text.words spelling ≠ [] ∧
        spelling.all (fun c => isWord c || c == ' ') ∧
        ∀ run ∈ Text.runs spelling, run ∉ reservedWords := by
    decide +kernel
  have hmem : t ∈ CatalogType.primitives.map fun entry => entry.1.toList := by
    apply List.mem_map.mpr
    use (String.ofList t, type), h
    apply String.toList_ofList
  obtain ⟨hcollapsed, hwords, hchars, hruns⟩ := hall t hmem
  exact ⟨hcollapsed, hwords, by simpa using hchars, hruns⟩

/-! ### Members -/

/-- Declarations of members of primitive types, or of types from a list of names, with numerals
as lengths. -/
structure Member.Canonical (earlier : List Text) (m : Member) : Prop where
  named : m.Named
  names : ∀ name ∈ m.names, name ∉ reservedWords
  type : (∃ type, (String.ofList m.type, type) ∈ CatalogType.primitives) ∨ m.type ∈ earlier
  lengths : ∀ length ∈ m.lengths,
    length ≠ [] ∧ length.all Char.isDigit ∧ length.length ≤ Numeral.digitLimit

namespace Member

namespace Canonical

variable {earlier : List Text} {m : Member} (h : m.Canonical earlier)

include h

theorem isDigit :
  ∀ length ∈ m.lengths, ∀ c ∈ length, c.isDigit
  := fun length hlength => List.all_eq_true.mp (h.lengths length hlength).2.1

theorem unreserved_name :
  ∀ name ∈ m.names, Unreserved name
  := fun name hname =>
    unreserved_of_forall (Text.isWord_of_isIdent (isIdent_of_named h.named name hname))
      (h.names name hname)

theorem unreserved_declarators :
  Unreserved m.declarators
  := by
  have hne : ∀ word ∈ reservedWords, word ≠ [] := by decide
  intro run hrun hreserved
  rcases mem_runs_declarators h.named (hne run hreserved) hrun with
    ⟨name, hname, hrun⟩ | ⟨length, hlength, hrun⟩
  · apply h.unreserved_name name hname run hrun hreserved
  · apply unreserved_of_digits (h.isDigit length hlength) run hrun hreserved

theorem not_mem_marks :
  ∀ length ∈ m.lengths, ∀ c ∈ length, c ∉ marks
  := by
  intro length hlength c hc hmark
  have hword := isWord_of_isDigit (h.isDigit length hlength c hc)
  simp [isWord_of_mem_marks hmark] at hword

variable (hearlier : ∀ name ∈ earlier, IsTypeName name)

include hearlier

theorem isTypeName :
  IsTypeName m.type
  := by
  rcases h.type with ⟨type, hmem⟩ | hmem
  · apply isTypeName_of_primitive hmem
  · apply hearlier m.type hmem

theorem unreserved_render :
  Unreserved m.render
  := (unreserved_append rfl).mpr ⟨(h.isTypeName hearlier).unreserved, h.unreserved_declarators⟩

/-- A canonical declaration is collapsed already. -/
theorem collapse_render :
  Text.collapse m.render = m.render
  := by
  have htype := h.isTypeName hearlier
  have hsqueezed : m.squeezed.declarators = m.declarators := by
    cases m with
    | array type name lengths =>
        have hlengths : lengths.map Text.squeeze = lengths := by
          rw [List.map_congr_left (g := id), List.map_id]
          intro length hlength
          apply Text.squeeze_of_solid
          intro c hc
          apply isBlank_of_isDigit (h.isDigit length hlength c hc)
        rw [squeezed, declarators, hlengths, declarators]
    | plain type names => rfl
  rw [Header.collapse_render h.named htype.words, htype.collapsed, hsqueezed, render]

/-- The characters that do not stand in a canonical declaration. -/
theorem not_mem_render {c : Char} (hword : isWord c = false) (hc : c ∉ [' ', ',', '[', ']']) :
  c ∉ m.render
  := by
  apply Member.not_mem_render h.named hword hc
  · intro hmem
    rcases (h.isTypeName hearlier).chars c hmem with hmem | rfl
    · simp [hword] at hmem
    · simp at hc
  · intro length hlength hmem
    simp [isWord_of_isDigit (h.isDigit length hlength c hmem)] at hword

theorem wellFormed :
  m.WellFormed
  := by
  have htype := h.isTypeName hearlier
  have hcollapse := h.collapse_render hearlier
  have hunreserved := h.unreserved_render hearlier
  constructor
  · exact h.named
  · exact htype.words
  · intro c hc hmark
    rcases htype.chars c hc with hc | rfl
    · simp [isWord_of_mem_marks hmark] at hc
    · contradiction
  · rw [htype.collapsed]
    intro hlast
    rcases htype.chars ',' (List.mem_of_getLast? hlast) with hc | hc
    · contradiction
    · contradiction
  · rw [hcollapse]
    apply Statement.afterLabel?_of_not_mem (h.not_mem_render hearlier rfl (by decide))
  · intro word hword
    rw [hcollapse]
    have hmem : word.toList ∈ reservedWords := List.mem_map_of_mem (List.mem_cons_of_mem _ hword)
    apply Text.dropKeyword?_of_not_mem (isWord_of_mem_reservedWords hmem)
    intro hrun
    apply hunreserved _ hrun hmem
  · rw [hcollapse]
    have hmem : "operator".toList ∈ reservedWords := by decide
    apply Statement.containsWord_of_not_mem (isWord_of_mem_reservedWords hmem)
    intro hrun
    apply hunreserved _ hrun hmem

end Canonical

end Member

/-! ### Structs -/

/-- Definitions of structs that use the structs from a list of names. -/
structure StructDef.Canonical (earlier : List Text) (d : StructDef) : Prop where
  ident : Text.isIdent d.name
  unreserved : d.name ∉ reservedWords
  uncatalogued : CatalogType.ofName? d.name = none
  fresh : d.name ∉ earlier
  members : ∀ m ∈ d.members, m.Canonical earlier

namespace StructDef.Canonical

variable {earlier : List Text} {d : StructDef} (h : d.Canonical earlier)

include h

theorem isTypeName :
  IsTypeName d.name
  := isTypeName_of_isIdent h.ident h.unreserved

variable (hearlier : ∀ name ∈ earlier, IsTypeName name)

include hearlier

theorem unreserved_body :
  Unreserved d.body
  := by
  have hmembers := h.members
  rw [body]
  generalize d.members = members at hmembers
  induction members with
  | nil => apply unreserved_cons rfl unreserved_nil
  | cons m members ih =>
      have ih := ih fun m' hm' => hmembers m' (List.mem_cons_of_mem m hm')
      have hm := (hmembers m List.mem_cons_self).unreserved_render hearlier
      rw [List.flatMap_cons, List.append_assoc, List.cons_append, List.append_assoc]
      apply unreserved_cons rfl
      apply (unreserved_append rfl).mpr ⟨hm, ih⟩

/-- The characters that do not stand in the body of a canonical struct. -/
theorem not_mem_body {c : Char} (hword : isWord c = false) (hc : c ∉ [' ', ',', '[', ']', ';']) :
  c ∉ d.body
  := by
  simp only [List.mem_cons, List.not_mem_nil, or_false, not_or] at hc
  intro hmem
  rcases List.mem_append.mp hmem with hmem | hmem
  · obtain ⟨m, hm, hmem⟩ := List.mem_flatMap.mp hmem
    simp only [List.mem_cons, List.mem_append, List.not_mem_nil, or_false] at hmem
    rcases hmem with rfl | hmem | rfl
    · simp at hc
    · apply (h.members m hm).not_mem_render hearlier hword _ hmem
      simp [hc]
    · simp at hc
  · simp [hc] at hmem

theorem findable :
  d.Findable
  := by
  have hword : structWord ∈ reservedWords := by decide
  constructor
  · exact h.ident
  · intro c hc
    constructor
    · rintro rfl
      apply h.not_mem_body hearlier rfl (by decide) hc
    · rintro rfl
      apply h.not_mem_body hearlier rfl (by decide) hc
  · intro hrun
    have hunreserved : Unreserved (d.name ++ ' ' :: d.body) :=
      (unreserved_append rfl).mpr ⟨h.isTypeName.unreserved, h.unreserved_body hearlier⟩
    apply hunreserved structWord hrun hword

/-- The statements of the body are the declarations. -/
theorem statements_body :
  statements d.body = d.members.map Member.render
  := by
  have hstrip : stripComments d.body = d.body :=
    stripComments_of_not_mem (h.not_mem_body hearlier rfl (by decide))
  have hbody : stripComments d.body =
      (d.members.map fun m => ' ' :: m.render).flatMap (· ++ [';']) ++ [' '] := by
    rw [hstrip, body, List.flatMap_map]
    rfl
  have hcollapse : ∀ m ∈ d.members, Text.collapse (' ' :: m.render) = m.render := by
    intro m hm
    rw [Text.collapse_cons_blank rfl, (h.members m hm).collapse_render hearlier]
  rw [statements_flatMap hbody, List.map_map]
  · apply List.map_congr_left hcollapse
  · rw [hstrip]
    apply h.not_mem_body hearlier rfl (by decide)
  · intro piece hpiece
    obtain ⟨m, hm, rfl⟩ := List.mem_map.mp hpiece
    have hmember := h.members m hm
    have hwellFormed := hmember.wellFormed hearlier
    constructor
    · intro c hc
      rcases List.mem_cons.mp hc with rfl | hc
      · decide
      · apply hwellFormed.not_mem_statementMarks hmember.not_mem_marks c hc
    · rw [Text.words_cons_blank rfl]
      apply hwellFormed.words_render
  · intro c hc
    obtain rfl := List.mem_singleton.mp hc
    rfl

end StructDef.Canonical

end ContractInterface.Header
