import ContractInterface.Proofs.Header.ArrayTemplate
import ContractInterface.Proofs.Resolution.Declaration
import ContractInterface.Proofs.Resolution.Termination
import ContractInterface.TypeDesc.Layout
import Mathlib.Algebra.BigOperators.Group.List.Basic

/-!
# The two spellings of arrays

An array member is declared with its lengths in brackets behind its name, `T x[m][n]`, or with
array templates around its type, `Array<Array<T, n>, m> x`.  In the first spelling the lengths are
resolved one after another and then the type is; in the second, the length of a template is
resolved before its item type, so the order is the same.  Lengths that have values leave the state
as it is, so the two spellings give the same array and the same warnings.
-/

namespace ContractInterface

/-! ### The layout of nested arrays -/

namespace TypeDesc

theorem size_foldr_array (ns : List Nat) (item : TypeDesc) :
  (ns.foldr array item).size = ns.prod * item.size
  := by
  induction ns with
  | nil => rw [List.foldr_nil, List.prod_nil, Nat.one_mul]
  | cons n ns ih =>
      calc
        ((n :: ns).foldr array item).size
          = (ns.foldr array item).size * n := rfl
        _ = ns.prod * item.size * n := by rw [ih]
        _ = (n :: ns).prod * item.size := by
            rw [List.prod_cons, Nat.mul_comm _ n, Nat.mul_assoc]

theorem align_foldr_array (ns : List Nat) (item : TypeDesc) :
  (ns.foldr array item).align = item.align
  := by
  induction ns with
  | nil => rfl
  | cons n ns ih => exact ih

end TypeDesc

namespace Header

open Resolution

theorem outcome_map_congr {α β : Type} {x x' : Resolution α} {s : ResolverState}
    (h : x.outcome s = x'.outcome s) (f : α → β) :
  (f <$> x).outcome s = (f <$> x').outcome s
  := by
  rw [outcome_map, h, outcome_map]

section Resolve

variable (scope : Scope) (s : ResolverState)

/-- A type is looked up by its name. -/
theorem Scope.outcome_resolve_congr {declared declared' : Text}
    (h : typeName declared = typeName declared') :
  (scope.resolve declared).outcome s = (scope.resolve declared').outcome s
  := by
  rw [scope.outcome_resolve, scope.outcome_resolve]
  unfold resolveStep
  rw [h]

/-! ### Array templates -/

/-- An array template resolves to an array of what its item type resolves to. -/
theorem Scope.outcome_resolve_arrayTemplate {item length : Text} (hitem : PlainType item)
    (hlength : PlainLength length) {n : Nat}
    (hn : Expr.resolveLength scope.constants (Text.collapse length) = .ok (some n)) :
  (scope.resolve (arrayTemplate item length)).outcome s =
    (TypeDesc.array n <$> scope.resolve item).outcome s
  := by
  have hwords : Text.words length ≠ [] := by
    intro hempty
    have hcollapse : Text.collapse length = [] := by
      rw [Text.collapse, hempty]
      rfl
    have hnone : Expr.resolveLength scope.constants [] = .ok none := rfl
    rw [hcollapse, hnone] at hn
    simp at hn
  have hmarks : ∀ c ∈ length, c ∉ [',', '<', '>'] := by
    intro c hc hmark
    exact hlength.marks c hc (List.mem_append_left _ (List.mem_cons_of_mem _ hmark))
  have hmeasure : (scope.length (Text.collapse length)).outcome s = (.ok (some n), s) := by
    rw [Scope.length, hn]
    rfl
  have hname := ofName?_arrayTemplate hitem.words hwords hmarks
  rw [scope.outcome_resolve, resolveStep_catalog _ hname, resolveCatalog, outcome_bind_ok hmeasure]
  dsimp only
  rw [bind_pure_comp]
  exact outcome_map_congr (scope.outcome_resolve_congr s (typeName_collapse item)) _

/-- Nested templates resolve to nested arrays. -/
theorem Scope.outcome_resolve_nestedTemplate {type : Text} (htype : PlainType type)
    {lengths : List Text} (hlengths : ∀ length ∈ lengths, PlainLength length) {ns : List Nat}
    (hmeasures : scope.Measures (lengths.map Text.collapse) ns) :
  (scope.resolve (nestedTemplate type lengths)).outcome s =
    ((fun item => ns.foldr TypeDesc.array item) <$> scope.resolve type).outcome s
  := by
  induction lengths generalizing ns with
  | nil =>
      obtain rfl := List.forall₂_nil_left_iff.mp hmeasures
      exact congrArg (fun x => outcome x s) (id_map _).symm
  | cons length lengths ih =>
      obtain ⟨n, ns, hn, hrest, rfl⟩ := List.forall₂_cons_left_iff.mp hmeasures
      obtain ⟨hlength, hlengths⟩ := List.forall_mem_cons.mp hlengths
      have hitem := htype.nestedTemplate hlengths
      calc
        (scope.resolve (nestedTemplate type (length :: lengths))).outcome s
          = (TypeDesc.array n <$> scope.resolve (nestedTemplate type lengths)).outcome s :=
            scope.outcome_resolve_arrayTemplate s hitem hlength hn
        _ = (TypeDesc.array n <$> (fun item => ns.foldr TypeDesc.array item) <$>
              scope.resolve type).outcome s := outcome_map_congr (ih hlengths hrest) _
        _ = ((fun item => (n :: ns).foldr TypeDesc.array item) <$>
              scope.resolve type).outcome s := by
            rw [← comp_map]
            rfl

/-! ### Bodies with one declaration -/

/-- The struct of a body that holds one declaration. -/
theorem Scope.outcome_resolveFields_plainType {m : Member} (hnamed : m.Named)
    (htype : PlainType m.type) (hlengths : ∀ length ∈ m.lengths, PlainLength length)
    (hnames : ∀ name ∈ m.names, name ≠ "operator".toList)
    (hlast : m.lengths = [] → (Text.collapse m.type).getLast? ≠ some ',') :
  (scope.resolveFields (m.render ++ [';'])).outcome s =
    (TypeDesc.struct <$> resolveMember scope scope.resolve m.tidy).outcome s
  := by
  have hstatement := htype.ofText_collapse_render hnamed hlengths hnames hlast
  rw [scope.outcome_resolveFields, resolveBody, htype.statements_render hnamed hlengths]
  simp [resolveStatements, resolveStatement, hstatement]

section Array

variable {type name : Text} {lengths : List Text} {ns : List Nat} (hname : Text.isIdent name)
  (hoperator : name ≠ "operator".toList) (htype : PlainType type) (hne : lengths ≠ [])
  (hlengths : ∀ length ∈ lengths, PlainLength length)
  (hmeasures : scope.Measures (lengths.map Text.collapse) ns)

include hname hoperator htype hne hlengths hmeasures

/-- The struct of an array with its lengths in brackets. -/
theorem Scope.outcome_resolveFields_brackets :
  (scope.resolveFields ((Member.array type name lengths).render ++ [';'])).outcome s =
    ((fun item => .struct [(String.ofList name, ns.foldr TypeDesc.array item)]) <$>
      scope.resolve type).outcome s
  := by
  have hnames : ∀ other ∈ [name], other ≠ "operator".toList := by simpa using hoperator
  have hmember :
      (resolveMember scope scope.resolve (Member.array type name lengths).tidy).outcome s =
        ((fun item => [(.text (String.ofList name), ns.foldr TypeDesc.array item)]) <$>
          scope.resolve type).outcome s := by
    rw [Member.tidy, resolveMember, outcome_bind_ok (outcome_resolveLengths hmeasures)]
    dsimp only
    rw [bind_pure_comp]
    exact outcome_map_congr (scope.outcome_resolve_congr s (typeName_collapse type)) _
  rw [scope.outcome_resolveFields_plainType s (m := .array type name lengths) ⟨hname, hne⟩ htype
    hlengths hnames fun hempty => absurd hempty hne, outcome_map_congr hmember, ← comp_map]
  rfl

/-- The struct of an array of nested templates. -/
theorem Scope.outcome_resolveFields_template :
  (scope.resolveFields ((Member.plain (nestedTemplate type lengths) [name]).render ++
      [';'])).outcome s =
    ((fun item => .struct [(String.ofList name, ns.foldr TypeDesc.array item)]) <$>
      scope.resolve type).outcome s
  := by
  have hnames : ∀ other ∈ [name], other ≠ "operator".toList := by simpa using hoperator
  have hlast : (Text.collapse (nestedTemplate type lengths)).getLast? ≠ some ',' := by
    obtain ⟨length, lengths, rfl⟩ := List.exists_cons_of_ne_nil hne
    rw [nestedTemplate, List.foldr_cons, getLast?_collapse_arrayTemplate]
    decide
  have hresolve : (scope.resolve (Text.collapse (nestedTemplate type lengths))).outcome s =
      ((fun item => ns.foldr TypeDesc.array item) <$> scope.resolve type).outcome s := by
    rw [scope.outcome_resolve_congr s (typeName_collapse _),
      scope.outcome_resolve_nestedTemplate s htype hlengths hmeasures]
  have hmember : (resolveMember scope scope.resolve
      (Member.plain (nestedTemplate type lengths) [name]).tidy).outcome s =
      ((fun t => [(.text (String.ofList name), t)]) <$>
        (fun item => ns.foldr TypeDesc.array item) <$> scope.resolve type).outcome s := by
    rw [Member.tidy, resolveMember, bind_pure_comp]
    exact outcome_map_congr hresolve _
  rw [scope.outcome_resolveFields_plainType s (m := .plain (nestedTemplate type lengths) [name])
    ⟨by simp, by simpa using hname⟩ (htype.nestedTemplate hlengths) (by simp [Member.lengths])
    hnames fun _ => hlast, outcome_map_congr hmember, ← comp_map, ← comp_map]
  rfl

end Array

/-- The two spellings of an array member agree with the struct of an array around what its type
resolves to: they give the same struct, with the same warnings, and leave the same state.  The size
of the array is the product of its lengths and of the size of the innermost items, and it is
aligned as these are. -/
theorem Scope.outcome_resolveFields_array {type name : Text} {lengths : List Text} {ns : List Nat}
    (hname : Text.isIdent name) (hoperator : name ≠ "operator".toList) (htype : PlainType type)
    (hne : lengths ≠ []) (hlengths : ∀ length ∈ lengths, PlainLength length)
    (hmeasures : scope.Measures lengths ns) :
  (∀ body ∈ [(Member.array type name lengths).render ++ [';'],
      (Member.plain (nestedTemplate type lengths) [name]).render ++ [';']],
    (scope.resolveFields body).outcome s =
      ((fun item => .struct [(String.ofList name, ns.foldr TypeDesc.array item)]) <$>
        scope.resolve type).outcome s) ∧
  ∀ item, (ns.foldr TypeDesc.array item).size = ns.prod * item.size ∧
    (ns.foldr TypeDesc.array item).align = item.align
  := by
  have hmeasures : scope.Measures (lengths.map Text.collapse) ns := by
    apply hmeasures.collapse
    · intro length hlength
      exact (hlengths length hlength).not_mem (by decide)
    · intro length hlength
      exact (hlengths length hlength).not_mem (by decide)
  refine ⟨?_, ?_⟩
  · rw [List.forall_mem_cons, List.forall_mem_singleton]
    exact ⟨scope.outcome_resolveFields_brackets s hname hoperator htype hne hlengths hmeasures,
      scope.outcome_resolveFields_template s hname hoperator htype hne hlengths hmeasures⟩
  · intro item
    exact ⟨TypeDesc.size_foldr_array ns item, TypeDesc.align_foldr_array ns item⟩

end Resolve

/-- An array in two dimensions, of an unknown type with a comma of its own. -/
theorem outcome_resolveFields_array_unknown :
  let scope : Scope := ⟨[], [("N", 3)], []⟩
  let warning := "Unknown type: Map<id, bit> (treated as bytes[0])"
  ∀ body ∈ ["Map<id, bit> x[N + 1][2];".toList, "Array<Array<Map<id, bit>, 2>, N + 1> x;".toList],
    (scope.resolveFields body).outcome .start =
      (.ok (.struct [("x", .array 4 (.array 2 .placeholder))]), ⟨⟨[], [], 0, 1⟩, [], [warning]⟩)
  := by
  intro scope warning
  have htype : PlainType "Map<id, bit>".toList := by
    refine ⟨?_, Text.forall_mem_of_all ?_, ?_, ?_, ?_⟩
    all_goals decide +kernel
  have hlengths : ∀ length ∈ ["N + 1".toList, "2".toList], PlainLength length := by
    rw [List.forall_mem_cons, List.forall_mem_singleton]
    refine ⟨⟨Text.forall_mem_of_all ?_, ?_⟩, ⟨Text.forall_mem_of_all ?_, ?_⟩⟩
    all_goals decide +kernel
  have hmeasures : scope.Measures ["N + 1".toList, "2".toList] [4, 2] := .cons rfl (.cons rfl .nil)
  have hname : Text.isIdent "x".toList := by decide
  have harray := (scope.outcome_resolveFields_array .start hname (by decide) htype (by decide)
    hlengths hmeasures).1
  have hbodies : ["Map<id, bit> x[N + 1][2];".toList,
        "Array<Array<Map<id, bit>, 2>, N + 1> x;".toList] =
      [(Member.array "Map<id, bit>".toList "x".toList ["N + 1".toList, "2".toList]).render ++ [';'],
        (Member.plain (nestedTemplate "Map<id, bit>".toList ["N + 1".toList, "2".toList])
          ["x".toList]).render ++ [';']] := by
    decide +kernel
  rw [hbodies]
  intro body hbody
  rw [harray body hbody]
  decide +kernel

end Header

end ContractInterface
