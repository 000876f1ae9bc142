import ContractInterface.Proofs.Expr.Length
import ContractInterface.Proofs.Header.DataMember
import ContractInterface.Proofs.Resolution.Depth
import Mathlib.Data.List.Forall2

/-!
# Resolving declarations

A declaration whose type and whose lengths can be resolved adds a field for each of its names, and
leaves what the resolution of its type leaves.  So a well-formed data member is not lost without a
warning, with one exception: a declaration with a parenthesis, such as `uint8 x[(4)]`, is taken for
a method and adds nothing.

A well-formed member does not begin with `struct`, `class` or another keyword of nested types.  A
declaration that does, such as `struct S x`, is set aside with the nested types, so it is lost
without a warning too.
-/

namespace ContractInterface.Header

open Resolution

/-- The lengths of a declaration have the given values. -/
def Scope.Measures (scope : Scope) : List Text → List Nat → Prop :=
  List.Forall₂ fun length n => Expr.resolveLength scope.constants length = .ok (some n)

/-- The fields that a declaration adds to its struct, for the type and the lengths in it. -/
def Member.fields (m : Member) (type : TypeDesc) (ns : List Nat) : List (JsonString × TypeDesc) :=
  m.names.map fun name => (String.ofList name, ns.foldr TypeDesc.array type)

section Member

variable {scope : Scope} {resolve : Text → Resolution TypeDesc} {s s' : ResolverState}
  {type : TypeDesc} {ns : List Nat}

theorem outcome_resolveLengths {lengths : List Text} (h : scope.Measures lengths ns) :
  (resolveLengths scope lengths).outcome s = (.ok (some ns), s)
  := by
  induction lengths generalizing ns with
  | nil =>
      obtain rfl := List.forall₂_nil_left_iff.mp h
      rfl
  | cons length lengths ih =>
      obtain ⟨n, ns, hlength, hrest, rfl⟩ := List.forall₂_cons_left_iff.mp h
      have hfirst : (scope.length length).outcome s = (.ok (some n), s) := by
        rw [Scope.length, hlength]
        rfl
      rw [resolveLengths, outcome_bind_ok hfirst]
      dsimp only
      rw [outcome_bind_ok (ih hrest)]
      rfl

theorem outcome_resolveMember {m : Member} (hlengths : scope.Measures m.lengths ns)
    (htype : (resolve m.type).outcome s = (.ok type, s')) :
  (resolveMember scope resolve m).outcome s = (.ok (m.fields type ns), s')
  := by
  cases m with
  | array declared name lengths =>
      rw [Member.lengths] at hlengths
      rw [Member.type] at htype
      rw [resolveMember, outcome_bind_ok (outcome_resolveLengths hlengths)]
      dsimp only
      rw [outcome_bind_ok htype]
      rfl
  | plain declared names =>
      obtain rfl := List.forall₂_nil_left_iff.mp hlengths
      rw [Member.type] at htype
      rw [resolveMember, outcome_bind_ok htype]
      rfl

/-- What a well-formed declaration without parentheses adds to its struct. -/
theorem outcome_resolveStatement_render {m : Member} (h : m.WellFormed)
    (hmarks : ∀ length ∈ m.lengths, ∀ c ∈ length, c ∉ Member.marks) (hparen : '(' ∉ m.render)
    (hlengths : scope.Measures (m.lengths.map Text.collapse) ns)
    (htype : (resolve (Text.collapse m.type)).outcome s = (.ok type, s')) :
  (resolveStatement scope resolve (Text.collapse m.render)).outcome s =
    (.ok (m.fields type ns), s')
  := by
  have hfields : m.tidy.fields type ns = m.fields type ns := by
    cases m with
    | array declared name lengths => rfl
    | plain declared names => rfl
  rw [resolveStatement, Statement.ofText_collapse_render h hmarks, if_neg hparen, ← hfields]
  apply outcome_resolveMember
  · cases m with
    | array declared name lengths => exact hlengths
    | plain declared names => exact hlengths
  · cases m with
    | array declared name lengths => exact htype
    | plain declared names => exact htype

theorem outcome_resolveStatements_cons {s'' : ResolverState} {statement : Text}
    {statements : List Text} {fields fields' : List (JsonString × TypeDesc)}
    (h : (resolveStatement scope resolve statement).outcome s = (.ok fields, s'))
    (h' : (resolveStatements scope resolve statements).outcome s' = (.ok fields', s'')) :
  (resolveStatements scope resolve (statement :: statements)).outcome s =
    (.ok (fields ++ fields'), s'')
  := by
  rw [resolveStatements, outcome_bind_ok h, outcome_bind_ok h']
  rfl

end Member

/-! ### The body with one declaration -/

section Body

variable {scope : Scope} {s s' : ResolverState} {m : Member} {ns : List Nat}

theorem Scope.Measures.exists_of_mem {lengths : List Text} (h : scope.Measures lengths ns) :
  ∀ length ∈ lengths, ∃ n, Expr.resolveLength scope.constants length = .ok (some n)
  := by
  induction lengths generalizing ns with
  | nil => simp
  | cons first lengths ih =>
      obtain ⟨n, ns, hfirst, hrest, rfl⟩ := List.forall₂_cons_left_iff.mp h
      intro length hlength
      rcases List.mem_cons.mp hlength with rfl | hlength
      · use n, hfirst
      · apply ih hrest length hlength

/-- Lengths without comments that have values contain none of the marks. -/
theorem Scope.Measures.not_mem_marks {lengths : List Text} (h : scope.Measures lengths ns)
    (hslash : ∀ length ∈ lengths, '/' ∉ length) :
  ∀ length ∈ lengths, ∀ c ∈ length, c ∉ Member.marks
  := by
  have hmarks : Member.marks.all fun c => !isBlank c && !Expr.Token.isTokenChar c := by
    decide +kernel
  intro length hlength c hc hmark
  obtain ⟨n, hn⟩ := h.exists_of_mem length hlength
  have hmark := List.all_eq_true.mp hmarks c hmark
  have hchar := Expr.isTokenChar_of_resolveLength (hslash length hlength) hn c hc
  simp only [Bool.and_eq_true, Bool.not_eq_true'] at hmark
  simp [hmark] at hchar

theorem Scope.Measures.collapse {lengths : List Text} (h : scope.Measures lengths ns)
    (hslash : ∀ length ∈ lengths, '/' ∉ length) (hparen : ∀ length ∈ lengths, '(' ∉ length) :
  scope.Measures (lengths.map Text.collapse) ns
  := by
  have hvalue : ∀ length ∈ lengths, Expr.resolveLength scope.constants (Text.collapse length) =
      Expr.resolveLength scope.constants length := fun length hlength =>
    Expr.resolveLength_collapse (hslash length hlength) (hparen length hlength)
  rw [Measures, List.forall₂_map_left_iff]
  induction lengths generalizing ns with
  | nil =>
      obtain rfl := List.forall₂_nil_left_iff.mp h
      apply List.Forall₂.nil
  | cons first lengths ih =>
      obtain ⟨n, ns, hfirst, hrest, rfl⟩ := List.forall₂_cons_left_iff.mp h
      constructor
      · rw [hvalue first List.mem_cons_self, hfirst]
      · apply ih hrest
        · intro length hlength
          apply hslash length (List.mem_cons_of_mem first hlength)
        · intro length hlength
          apply hparen length (List.mem_cons_of_mem first hlength)
        · intro length hlength
          apply hvalue length (List.mem_cons_of_mem first hlength)

theorem typeName_collapse (declared : Text) :
  typeName (Text.collapse declared) = typeName declared
  := by
  rw [typeName, Text.collapse_collapse, typeName]

/-- A body that holds one declaration and comments has the declaration as its statement. -/
theorem statements_render (hm : m.WellFormed)
    (hmarks : ∀ length ∈ m.lengths, ∀ c ∈ length, c ∉ Member.marks) {body : Text}
    (hbody : stripComments body = m.render ++ [';']) :
  statements body = [Text.collapse m.render]
  := statements_singleton hbody (hm.not_mem_render hmarks (by decide) (by decide))
    (hm.not_mem_statementMarks hmarks) hm.words_render

/-- No well-formed data member is lost without a warning, unless there is a parenthesis in its
declaration: each declared name becomes a field of the declared type, nested in the declared
lengths, and nothing but the resolution of the type changes the state.  This says nothing of
members that begin with `struct` or `class`, which are not well formed: they are lost as well. -/
theorem outcome_resolveFields_render (hm : m.WellFormed)
    (hslash : ∀ length ∈ m.lengths, '/' ∉ length)
    {body : Text} (hbody : stripComments body = m.render ++ [';']) {type : TypeDesc}
    (htype : (scope.resolve m.type).outcome s = (.ok type, s'))
    (hlengths : scope.Measures m.lengths ns) :
  (scope.resolveFields body).outcome s =
    if '(' ∈ m.render then (.ok (.struct []), s) else (.ok (.struct (m.fields type ns)), s')
  := by
  have hmarks := hlengths.not_mem_marks hslash
  rw [Scope.resolveFields, resolveBody, statements_render hm hmarks hbody]
  split
  · rename_i hparen
    rw [resolveStatements, resolveStatements, resolveStatement,
      Statement.ofText_collapse_render hm hmarks, if_pos hparen]
    rfl
  · rename_i hparen
    have hlength : m.type.length ≤ body.length := by
      have h := (thinned_stripComments body).length_le
      rw [hbody, Member.render] at h
      simp only [List.length_append] at h
      omega
    have htype : (resolveWithin scope (scope.depth body.length) (Text.collapse m.type)).outcome s =
        (.ok type, s') := by
      rw [resolveWithin_congr scope _ (typeName_collapse m.type)]
      apply Scope.outcome_resolveWithin_of_resolve hlength htype
    have hparens : ∀ length ∈ m.lengths, '(' ∉ length := fun length hlength hmem =>
      hparen (Member.mem_render_of_mem_lengths hlength hmem)
    have hstatement := outcome_resolveStatement_render hm hmarks hparen
      (hlengths.collapse hslash hparens) htype
    rw [outcome_bind_ok (outcome_resolveStatements_cons hstatement rfl), List.append_nil]
    rfl

end Body

/-- A declaration of an array whose length is an expression with a comment in it. -/
theorem outcome_resolveFields_render_rows :
  let scope : Scope := ⟨[], [("N", 3)], []⟩
  (scope.resolveFields "uint16 x[N /* rows */ + 1];".toList).outcome .start =
    (.ok (.struct [("x", .array 4 .u16)]), .start)
  := by
  intro scope
  have hm : (Member.array "uint16".toList "x".toList ["N   + 1".toList]).WellFormed := by
    have hmarks : "uint16".toList.all fun c => c ∉ Member.marks := by decide
    have htype : ∀ c ∈ "uint16".toList, c ∉ Member.marks := fun c hc =>
      of_decide_eq_true (List.all_eq_true.mp hmarks c hc)
    refine ⟨?_, ?_, htype, ?_, ?_, ?_, ?_⟩
    all_goals decide +kernel
  have hslash : ∀ length ∈ ["N   + 1".toList], '/' ∉ length := by decide
  have hbody : stripComments "uint16 x[N /* rows */ + 1];".toList =
      "uint16 x[N   + 1]".toList ++ [';'] := by decide
  have htype : (scope.resolve "uint16".toList).outcome .start = (.ok .u16, .start) := rfl
  have hlengths : scope.Measures ["N   + 1".toList] [4] := .cons rfl .nil
  exact outcome_resolveFields_render hm hslash hbody htype hlengths

/-- A length between parentheses has a value, but the declaration is taken for a method. -/
theorem resolveFields_parenthesized :
  let scope : Scope := ⟨[], [], []⟩
  (scope.resolve "uint8".toList).outcome .start = (.ok .u8, .start) ∧
    Expr.resolveLength scope.constants "(4)".toList = .ok (some 4) ∧
    (scope.resolveFields "uint8 x[(4)];".toList).outcome .start = (.ok (.struct []), .start)
  := by
  refine ⟨?_, ?_, ?_⟩
  all_goals decide +kernel

end ContractInterface.Header
