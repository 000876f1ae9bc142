import ContractInterface.Proofs.Header.Brace
import ContractInterface.Proofs.Header.Extent
import ContractInterface.Proofs.Header.Occurrence
import ContractInterface.Proofs.Header.StructDef

/-!
# Where structs are defined

The definition of a struct is headed by the word `struct`, blanks and the name, each of the two
words between word boundaries, and an opening brace, before which no other delimiter stands behind
the name.  The body of a struct is what follows the leftmost such header, up to the brace that
closes the one in the header; it is balanced.  There is no body if there is no header, or if that
brace is never closed.
-/

namespace ContractInterface

namespace Header

open Text

/-! ### Headers of definitions -/

/-- A text that begins with the header of the definition of a struct; the rest is what follows the
opening brace. -/
def BeginsDefinition (name t rest : Text) : Prop :=
  ∃ blanks gap, blanks ≠ [] ∧ Blanks blanks ∧ startsWord (gap ++ ['{']) = false ∧
    (∀ c ∈ gap, isStructDelimiter c = false) ∧
    t = structWord ++ blanks ++ name ++ gap ++ '{' :: rest

/-- The definition of a struct is headed at a place of a source, between word boundaries; the rest
is what follows the opening brace. -/
structure DefinesAt (source name : Text) (place : Nat) (rest : Text) : Prop where
  boundary : ∀ c ∈ (source.take place).getLast?, isWord c = false
  begins : BeginsDefinition name (source.drop place) rest

variable {name t rest : Text}

theorem mem_afterSomeBlanks :
  rest ∈ afterSomeBlanks t ↔ ∃ blanks, blanks ≠ [] ∧ Blanks blanks ∧ t = blanks ++ rest
  := by
  induction t with
  | nil =>
      constructor
      · intro h
        contradiction
      · rintro ⟨blanks, hne, -, heq⟩
        exact absurd (List.append_eq_nil_iff.mp heq.symm).1 hne
  | cons c t ih =>
      rw [afterSomeBlanks]
      constructor
      · intro h
        split at h
        · rename_i hc
          rcases List.mem_append.mp h with h | h
          · obtain ⟨blanks, -, hblanks, rfl⟩ := ih.mp h
            exact ⟨c :: blanks, by simp, List.forall_mem_cons.mpr ⟨hc, hblanks⟩, rfl⟩
          · obtain rfl := List.mem_singleton.mp h
            exact ⟨[c], by simp, by simpa [Blanks] using hc, rfl⟩
        · contradiction
      · rintro ⟨blanks, hne, hblanks, heq⟩
        obtain ⟨b, blanks, rfl⟩ := List.exists_cons_of_ne_nil hne
        obtain ⟨rfl, rfl⟩ := List.cons.inj heq
        obtain ⟨hc, hblanks⟩ := List.forall_mem_cons.mp hblanks
        rw [if_pos hc, List.mem_append]
        cases blanks with
        | nil => simp
        | cons d blanks => exact .inl (ih.mpr ⟨d :: blanks, by simp, hblanks, rfl⟩)

/-- The blanks in front of a solid character are tried first all together. -/
theorem exists_afterSomeBlanks_eq {blanks : Text} (hne : blanks ≠ []) (hblanks : Blanks blanks)
    (ht : ∀ c ∈ t.head?, isBlank c = false) :
  ∃ others, afterSomeBlanks (blanks ++ t) = t :: others
  := by
  induction blanks with
  | nil => contradiction
  | cons b blanks ih =>
      obtain ⟨hb, hblanks⟩ := List.forall_mem_cons.mp hblanks
      rw [List.cons_append, afterSomeBlanks, if_pos hb]
      cases blanks with
      | nil =>
          have hsolid : afterSomeBlanks t = [] := by
            cases t with
            | nil => rfl
            | cons c t => rw [afterSomeBlanks, if_neg (by simp [ht c rfl])]
          exact ⟨[], by rw [List.nil_append, hsolid]; rfl⟩
      | cons d blanks =>
          obtain ⟨others, hothers⟩ := ih (by simp) hblanks
          exact ⟨_, by rw [hothers]; rfl⟩

/-- A name, whatever text it is, ends at a word boundary, and the first delimiter behind it is an
opening brace. -/
theorem afterName?_eq_some_iff_boundary :
  afterName? name t = some rest ↔
    ∃ gap, name.getLast?.any isWord ≠ startsWord (gap ++ ['{']) ∧
      (∀ c ∈ gap, isStructDelimiter c = false) ∧ t = name ++ gap ++ '{' :: rest
  := by
  have hstarts {gap : Text} : startsWord (gap ++ '{' :: rest) = startsWord (gap ++ ['{']) := by
    cases gap with
    | nil => rfl
    | cons c gap => rfl
  rw [afterName?, Option.bind_eq_bind, Option.bind_eq_some_iff]
  constructor
  · rintro ⟨behind, hbehind, h⟩
    rw [Option.ite_none_left_eq_some] at h
    obtain ⟨hboundary, h⟩ := h
    split at h
    · rename_i gap body hcut
      obtain rfl := Option.some.inj h
      obtain ⟨rfl, -, hgap⟩ := cutAt?_eq_some_iff.mp hcut
      rw [hstarts] at hboundary
      refine ⟨gap, by simpa using hboundary, hgap, ?_⟩
      rw [eq_append_of_dropPrefix? hbehind, List.append_assoc]
    · contradiction
  · rintro ⟨gap, hboundary, hgap, rfl⟩
    refine ⟨gap ++ '{' :: rest, by rw [List.append_assoc, dropPrefix?_append], ?_⟩
    rw [hstarts, if_neg (by simpa using hboundary), cutAt?_eq_some_iff.mpr ⟨rfl, rfl, hgap⟩]
    rfl

section Name

variable (hname : isIdent name)

include hname

/-- The name of a struct stands between word boundaries, and the first delimiter behind it is an
opening brace. -/
theorem afterName?_eq_some_iff :
  afterName? name t = some rest ↔
    ∃ gap, startsWord (gap ++ ['{']) = false ∧ (∀ c ∈ gap, isStructDelimiter c = false) ∧
      t = name ++ gap ++ '{' :: rest
  := by
  simp only [afterName?_eq_some_iff_boundary, any_getLast?_of_isIdent hname, ne_eq,
    Bool.true_eq, Bool.not_eq_true]

/-- The matcher recognises the headers of definitions. -/
theorem structMatcher_eq_some_iff {before : Option Char} :
  structMatcher name before t = some ((), rest) ↔
    before.any isWord = false ∧ BeginsDefinition name t rest
  := by
  simp only [structMatcher, Option.ite_none_left_eq_some, Bool.not_eq_true, Option.bind_eq_bind,
    Option.bind_eq_some_iff, Option.some.injEq, Prod.mk.injEq, true_and, exists_eq_right]
  apply and_congr_right
  intro _
  constructor
  · rintro ⟨behind, hbehind, hbody⟩
    obtain ⟨named, hnamed, hafter⟩ := List.exists_of_findSome?_eq_some hbody
    obtain ⟨blanks, hne, hblanks, rfl⟩ := mem_afterSomeBlanks.mp hnamed
    obtain ⟨gap, hboundary, hgap, rfl⟩ := (afterName?_eq_some_iff hname).mp hafter
    refine ⟨blanks, gap, hne, hblanks, hboundary, hgap, ?_⟩
    rw [eq_append_of_dropPrefix? hbehind]
    change structWord ++ _ = _
    simp only [List.append_assoc]
  · rintro ⟨blanks, gap, hne, hblanks, hboundary, hgap, rfl⟩
    refine ⟨blanks ++ (name ++ gap ++ '{' :: rest), ?_, ?_⟩
    · simp only [List.append_assoc]
      exact dropPrefix?_append structWord _
    · have hsolid : ∀ c ∈ (name ++ gap ++ '{' :: rest).head?, isBlank c = false := by
        obtain ⟨c, name, rfl⟩ := List.exists_cons_of_ne_nil (ne_nil_of_isIdent hname)
        rintro _ ⟨⟩
        exact solid_of_isIdent hname c List.mem_cons_self
      obtain ⟨others, hothers⟩ := exists_afterSomeBlanks_eq hne hblanks hsolid
      have hbody : afterName? name (name ++ gap ++ '{' :: rest) = some rest :=
        (afterName?_eq_some_iff hname).mpr ⟨gap, hboundary, hgap, rfl⟩
      rw [hothers, List.findSome?_cons, hbody]

theorem matchAt_eq_some_iff {source : Text} {place : Nat} :
  matchAt (structMatcher name) none source place = some ((), rest) ↔
    DefinesAt source name place rest
  := by
  rw [matchAt, structMatcher_eq_some_iff hname, Option.or_none]
  constructor
  · rintro ⟨hboundary, hbegins⟩
    refine ⟨?_, hbegins⟩
    intro c hc
    rw [Option.mem_def.mp hc] at hboundary
    exact hboundary
  · rintro ⟨hboundary, hbegins⟩
    refine ⟨?_, hbegins⟩
    cases hlast : (source.take place).getLast? with
    | none => rfl
    | some c => exact hboundary c hlast

theorem matchAt_eq_none_iff {source : Text} {place : Nat} :
  matchAt (structMatcher name) none source place = none ↔
    ∀ rest, ¬DefinesAt source name place rest
  := by
  rw [Option.eq_none_iff_forall_ne_some]
  constructor
  · intro h rest hdefines
    exact h ((), rest) ((matchAt_eq_some_iff hname).mpr hdefines)
  · rintro h ⟨⟨⟩, rest⟩ hfound
    exact h rest ((matchAt_eq_some_iff hname).mp hfound)

/-! ### The leftmost header -/

omit hname in
theorem structMatcher_nil (name : Text) (before : Option Char) :
  structMatcher name before [] = none
  := by
  have hprefix : dropPrefix? "struct".toList [] = none := by decide +kernel
  rw [structMatcher, hprefix]
  exact ite_self none

/-- The leftmost place at which the definition of a struct is headed. -/
def FirstDefinedAt (source name : Text) (place : Nat) (rest : Text) : Prop :=
  DefinesAt source name place rest ∧
    ∀ earlier < place, ∀ other, ¬DefinesAt source name earlier other

theorem scanFirst?_eq_some_iff {source : Text} :
  scanFirst? (structMatcher name) source = some ((), rest) ↔
    ∃ place, FirstDefinedAt source name place rest
  := by
  rw [scanFirst?, scanFirstFrom?_eq_some_iff (structMatcher_nil name)]
  simp only [matchAt_eq_some_iff hname, matchAt_eq_none_iff hname, FirstDefinedAt]

theorem scanFirst?_eq_none_iff {source : Text} :
  scanFirst? (structMatcher name) source = none ↔
    ∀ place rest, ¬DefinesAt source name place rest
  := by
  rw [scanFirst?, scanFirstFrom?_eq_none_iff (structMatcher_nil name)]
  simp only [matchAt_eq_none_iff hname]

/-! ### Bodies -/

theorem structBody?_eq_some_iff {source body : Text} :
  structBody? source name = some body ↔
    ∃ place rest n, FirstDefinedAt source name place rest ∧
      closingBrace? 1 rest = some n ∧ body = rest.take n
  := by
  simp only [structBody?, Option.bind_eq_bind, Option.bind_eq_some_iff, Option.some.injEq]
  constructor
  · rintro ⟨⟨⟨⟩, rest⟩, hfound, n, hn, rfl⟩
    obtain ⟨place, hfirst⟩ := (scanFirst?_eq_some_iff hname).mp hfound
    exact ⟨place, rest, n, hfirst, hn, rfl⟩
  · rintro ⟨place, rest, n, hfirst, hn, rfl⟩
    exact ⟨((), rest), (scanFirst?_eq_some_iff hname).mpr ⟨place, hfirst⟩, n, hn, rfl⟩

theorem structBody?_eq_none_iff {source : Text} :
  structBody? source name = none ↔
    (∀ place rest, ¬DefinesAt source name place rest) ∨
    ∃ place rest, FirstDefinedAt source name place rest ∧ closingBrace? 1 rest = none
  := by
  simp only [structBody?, Option.bind_eq_bind, Option.bind_eq_none_iff, reduceCtorEq, imp_false,
    ← Option.eq_none_iff_forall_ne_some]
  constructor
  · intro h
    cases hfound : scanFirst? (structMatcher name) source with
    | none => exact .inl ((scanFirst?_eq_none_iff hname).mp hfound)
    | some found =>
        obtain ⟨⟨⟩, rest⟩ := found
        obtain ⟨place, hfirst⟩ := (scanFirst?_eq_some_iff hname).mp hfound
        exact .inr ⟨place, rest, hfirst, h _ hfound⟩
  · rintro (hnever | ⟨place, rest, hfirst, hopen⟩) ⟨⟨⟩, rest'⟩ hfound
    · rw [(scanFirst?_eq_none_iff hname).mpr hnever] at hfound
      contradiction
    · rw [(scanFirst?_eq_some_iff hname).mpr ⟨place, hfirst⟩] at hfound
      obtain rfl : rest = rest' := by simpa using hfound
      exact hopen

/-- The body of a struct is what stands between the opening brace of its leftmost header and the
first brace with which all braces since then are closed.  It is missing exactly if there is no
header or that brace is never closed, and it is balanced. -/
theorem structBody?_location {source : Text} :
  (∀ body, structBody? source name = some body ↔
    ∃ place rest n, FirstDefinedAt source name place rest ∧
      (ClosesAt 1 rest n ∧ ∀ m < n, ¬ClosesAt 1 rest m) ∧ body = rest.take n) ∧
  (structBody? source name = none ↔
    (∀ place rest, ¬DefinesAt source name place rest) ∨
    ∃ place rest, FirstDefinedAt source name place rest ∧ ∀ n, ¬ClosesAt 1 rest n) ∧
  ∀ body, structBody? source name = some body → Balanced body
  := by
  refine ⟨?_, ?_, ?_⟩
  · simp only [structBody?_eq_some_iff hname, closingBrace?_eq_some_iff, implies_true]
  · simp only [structBody?_eq_none_iff hname, closingBrace?_eq_none_iff]
  · intro body h
    obtain ⟨place, rest, n, -, hn, rfl⟩ := (structBody?_eq_some_iff hname).mp h
    exact balanced_take hn

end Name

/-- A source in which a longer name, a forward declaration, a parameter and a word that ends with
`struct` come before the definition, whose body has braces of its own. -/
def crowdedSource : Text :=
  "struct Pair2 { int x; }; struct Pair; void f(struct Pair p) { } ".toList ++
    "xstruct Pair { } struct\n Pair : Base { enum { A } a; } struct Pair { }".toList

theorem structBody?_location_crowdedSource :
  Text.isIdent "Pair".toList ∧
  structBody? crowdedSource "Pair".toList = some " enum { A } a; ".toList ∧
  ∃ place rest n, FirstDefinedAt crowdedSource "Pair".toList place rest ∧
    (ClosesAt 1 rest n ∧ ∀ m < n, ¬ClosesAt 1 rest m) ∧
    " enum { A } a; ".toList = rest.take n
  := by
  have hname : Text.isIdent "Pair".toList := by decide
  have hbody : structBody? crowdedSource "Pair".toList = some " enum { A } a; ".toList := by
    decide +kernel
  exact ⟨hname, hbody, ((structBody?_location hname).1 _).mp hbody⟩

end Header

end ContractInterface
