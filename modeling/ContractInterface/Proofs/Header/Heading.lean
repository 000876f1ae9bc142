import ContractInterface.Proofs.Header.Location

/-!
# Headings of structs

A struct is looked up by any text, whether it is an identifier or not: the text is searched
behind the word `struct` and blanks, so it may have blanks, punctuation and delimiters of its own,
or be empty.  A source heads a struct with a name if that search finds something.

For an identifier this says that a struct of that name is defined.  The empty name is headed
whenever any word is, since the boundary behind the blanks is where a word begins.
-/

namespace ContractInterface.Header

open Text

/-- A text that begins with the heading of a struct: behind the word `struct` and blanks stands the
name, at the end of which there is a word boundary, and the first delimiter behind it is an opening
brace. -/
def BeginsHeading (name t : Text) : Prop :=
  ∃ blanks gap rest, blanks ≠ [] ∧ Blanks blanks ∧
    name.getLast?.any isWord ≠ startsWord (gap ++ ['{']) ∧
    (∀ c ∈ gap, isStructDelimiter c = false) ∧
    t = structWord ++ blanks ++ name ++ gap ++ '{' :: rest

/-- Somewhere in a source a struct is headed with a name. -/
def Heads (source name : Text) : Prop :=
  ∃ front back, source = front ++ back ∧ (∀ c ∈ front.getLast?, isWord c = false) ∧
    BeginsHeading name back

variable {source name t : Text}

theorem structMatcher_ne_none_iff {before : Option Char} :
  structMatcher name before t ≠ none ↔ before.any isWord = false ∧ BeginsHeading name t
  := by
  rw [Option.ne_none_iff_exists']
  simp only [structMatcher, Option.ite_none_left_eq_some, Bool.not_eq_true, Option.bind_eq_bind,
    Option.bind_eq_some_iff, Option.some.injEq, Prod.exists]
  constructor
  · rintro ⟨-, -, hbefore, behind, hbehind, rest, hrest, -⟩
    obtain ⟨named, hnamed, hafter⟩ := List.exists_of_findSome?_eq_some hrest
    obtain ⟨blanks, hne, hblanks, rfl⟩ := mem_afterSomeBlanks.mp hnamed
    obtain ⟨gap, hboundary, hgap, rfl⟩ := afterName?_eq_some_iff_boundary.mp hafter
    refine ⟨hbefore, blanks, gap, rest, hne, hblanks, hboundary, hgap, ?_⟩
    rw [eq_append_of_dropPrefix? hbehind]
    change structWord ++ _ = _
    simp only [List.append_assoc]
  · rintro ⟨hbefore, blanks, gap, rest, hne, hblanks, hboundary, hgap, rfl⟩
    have hnamed : name ++ gap ++ '{' :: rest ∈
        afterSomeBlanks (blanks ++ (name ++ gap ++ '{' :: rest)) :=
      mem_afterSomeBlanks.mpr ⟨blanks, hne, hblanks, rfl⟩
    have hafter : afterName? name (name ++ gap ++ '{' :: rest) = some rest :=
      afterName?_eq_some_iff_boundary.mpr ⟨gap, hboundary, hgap, rfl⟩
    -- the blanks may be split in several ways, and an earlier one may be the one that is found
    obtain ⟨found, hfound⟩ : ∃ found, (afterSomeBlanks
        (blanks ++ (name ++ gap ++ '{' :: rest))).findSome? (afterName? name) = some found := by
      apply Option.isSome_iff_exists.mp
      rw [List.findSome?_isSome_iff]
      exact ⟨_, hnamed, by rw [hafter]; rfl⟩
    refine ⟨(), found, hbefore, blanks ++ (name ++ gap ++ '{' :: rest), ?_, found, hfound, rfl⟩
    simp only [List.append_assoc]
    exact dropPrefix?_append structWord _

/-- The search for a struct finds something exactly if one is headed. -/
theorem scanFirst?_ne_none_iff :
  scanFirst? (structMatcher name) source ≠ none ↔ Heads source name
  := by
  rw [scanFirst?, ne_eq, scanFirstFrom?_eq_none_iff (structMatcher_nil name)]
  simp only [not_forall, ← ne_eq, matchAt, structMatcher_ne_none_iff, Option.or_none]
  constructor
  · rintro ⟨place, hboundary, hbegins⟩
    refine ⟨source.take place, source.drop place, (List.take_append_drop place source).symm,
      ?_, hbegins⟩
    intro c hc
    rw [Option.mem_def.mp hc] at hboundary
    exact hboundary
  · rintro ⟨front, back, rfl, hboundary, hbegins⟩
    refine ⟨front.length, ?_, by rwa [List.drop_left]⟩
    rw [List.take_left]
    cases hlast : front.getLast? with
    | none => rfl
    | some c => exact hboundary c hlast

/-- Only what is headed has a body. -/
theorem heads_of_structBody? {body : Text} (h : structBody? source name = some body) :
  Heads source name
  := by
  simp only [structBody?, Option.bind_eq_bind, Option.bind_eq_some_iff] at h
  obtain ⟨found, hfound, -⟩ := h
  apply scanFirst?_ne_none_iff.mp
  rw [hfound]
  simp

/-- An identifier is headed exactly if a struct of that name is defined. -/
theorem heads_iff_of_isIdent (hname : isIdent name) :
  Heads source name ↔ ∃ place rest, DefinesAt source name place rest
  := by
  rw [← scanFirst?_ne_none_iff, ne_eq, scanFirst?_eq_none_iff hname]
  push Not
  rfl

theorem startsWord_dropWhile (gap : Text) :
  startsWord (gap.dropWhile isWord ++ ['{']) = false
  := by
  have hhead := List.head?_dropWhile_not isWord gap
  cases hdrop : gap.dropWhile isWord with
  | nil => rfl
  | cons c rest =>
      rw [hdrop] at hhead
      exact hhead

theorem isStructDelimiter_of_isWord {c : Char} (h : isWord c) :
  isStructDelimiter c = false
  := by
  by_contra hdelimiter
  simp only [isStructDelimiter, Bool.not_eq_false, Bool.or_eq_true, beq_iff_eq] at hdelimiter
  rcases hdelimiter with (((rfl | rfl) | rfl) | rfl) | rfl <;> contradiction

/-- The empty name is headed exactly if some word is: the word that begins behind the blanks. -/
theorem heads_nil_iff :
  Heads source [] ↔ ∃ word, word ≠ [] ∧ (∀ c ∈ word, isWord c) ∧ Heads source word
  := by
  constructor
  · rintro ⟨front, -, rfl, hfront, blanks, gap, rest, hne, hblanks, hboundary, hgap, rfl⟩
    have hstarts : startsWord (gap ++ ['{']) = true := by simpa using hboundary.symm
    have hword : gap.takeWhile isWord ≠ [] := by
      cases gap with
      | nil => contradiction
      | cons c gap =>
          have hc : isWord c := hstarts
          simp [hc]
    have hall : ∀ c ∈ gap.takeWhile isWord, isWord c := fun _ => List.mem_takeWhile_imp
    refine ⟨gap.takeWhile isWord, hword, hall, front, _, rfl, hfront, blanks,
      gap.dropWhile isWord, rest, hne, hblanks, ?_, ?_, ?_⟩
    · rw [any_getLast?_of_forall hword hall, startsWord_dropWhile]
      decide
    · intro c hc
      apply hgap c ((List.dropWhile_sublist isWord).subset hc)
    · simp only [List.append_nil, List.append_assoc]
      rw [← List.append_assoc (gap.takeWhile isWord), List.takeWhile_append_dropWhile]
  · rintro ⟨word, hword, hall, front, -, rfl, hfront, blanks, gap, rest, hne, hblanks, -, hgap,
      rfl⟩
    refine ⟨front, _, rfl, hfront, blanks, word ++ gap, rest, hne, hblanks, ?_, ?_, ?_⟩
    · obtain ⟨c, word, rfl⟩ := List.exists_cons_of_ne_nil hword
      have hc : isWord c := hall c List.mem_cons_self
      simp [startsWord, hc]
    · intro c hc
      rcases List.mem_append.mp hc with hc | hc
      · apply isStructDelimiter_of_isWord (hall c hc)
      · apply hgap c hc
    · simp only [List.append_nil, List.append_assoc]

end ContractInterface.Header
