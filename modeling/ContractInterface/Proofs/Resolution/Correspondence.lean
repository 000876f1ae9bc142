import ContractInterface.Proofs.Header.Extent
import ContractInterface.Proofs.Resolution.Outcome

/-!
# Corresponding resolutions

The resolution of a body is put together from the lookup of lengths, warnings, and the resolution
of the types of its members.  So a relation between resolutions that respects these, and their
composition, holds of two resolutions of a body as soon as it holds of the resolutions of the
types that are declared in the body.  These are no longer than the body itself.

A `Correspondence` relates a resolution to a family of resolutions, so that it can say what
eventually holds along a family.  Where the family is not needed it is left out of the relation.
-/

namespace ContractInterface.Header

open Resolution

/-- A relation between a resolution and a family of resolutions that composition respects. -/
structure Correspondence (ι : Type) where
  rel : {α : Type} → Resolution α → (ι → Resolution α) → Prop
  rel_pure : ∀ {α : Type} (a : α), rel (pure a) fun _ => pure a
  rel_ofNumeral : ∀ {α : Type} (x : Except Numeral.Error α),
    rel (ofNumeral x) fun _ => ofNumeral x
  rel_warn : ∀ message : String, rel (warn message) fun _ => warn message
  rel_bind : ∀ {α β : Type} {x : Resolution α} {x' : ι → Resolution α} {f : α → Resolution β}
    {f' : ι → α → Resolution β}, rel x x' → (∀ a, rel (f a) fun i => f' i a) →
    rel (x >>= f) fun i => x' i >>= f' i

namespace Correspondence

variable {ι : Type} (C : Correspondence ι) (scope : Scope) {resolve : Text → Resolution TypeDesc}
  {resolve' : ι → Text → Resolution TypeDesc}

theorem rel_giveUp (message : String) :
  C.rel (giveUp message) fun _ => giveUp message
  := by
  apply C.rel_bind (C.rel_warn message)
  intro _
  apply C.rel_pure

theorem rel_resolveCatalog {known : CatalogType}
    (h : ∀ item length, known = .fixedArray item length →
      C.rel (resolve item) fun i => resolve' i item) :
  C.rel (resolveCatalog scope resolve known) fun i => resolveCatalog scope (resolve' i) known
  := by
  cases known with
  | fixedArray item length =>
      apply C.rel_bind (C.rel_ofNumeral _)
      intro n
      cases n with
      | none => apply C.rel_giveUp
      | some n =>
          apply C.rel_bind (h item length rfl)
          intro type
          apply C.rel_pure
  | bitArray bits =>
      apply C.rel_bind (C.rel_ofNumeral _)
      intro n
      cases n with
      | none => apply C.rel_giveUp
      | some n => apply C.rel_pure
  | integerArray signed width length =>
      apply C.rel_bind (C.rel_ofNumeral _)
      intro n
      apply C.rel_pure
  | idArray length =>
      apply C.rel_bind (C.rel_ofNumeral _)
      intro n
      apply C.rel_pure
  | bitCount length =>
      apply C.rel_bind (C.rel_ofNumeral _)
      intro n
      apply C.rel_pure
  | primitive type => apply C.rel_pure
  | aggregate type => apply C.rel_pure
  | proposalData => apply C.rel_pure

theorem rel_resolveLengths (tokens : List Text) :
  C.rel (resolveLengths scope tokens) fun _ => resolveLengths scope tokens
  := by
  induction tokens with
  | nil => apply C.rel_pure
  | cons token tokens ih =>
      apply C.rel_bind (C.rel_ofNumeral _)
      intro n
      cases n with
      | none =>
          apply C.rel_bind (C.rel_warn _)
          intro _
          apply C.rel_pure
      | some n =>
          apply C.rel_bind ih
          intro ns
          apply C.rel_pure

theorem rel_resolveMember {m : Member} (h : C.rel (resolve m.type) fun i => resolve' i m.type) :
  C.rel (resolveMember scope resolve m) fun i => resolveMember scope (resolve' i) m
  := by
  cases m with
  | array type name lengths =>
      apply C.rel_bind (C.rel_resolveLengths scope lengths)
      intro ns
      cases ns with
      | none => apply C.rel_pure
      | some ns =>
          apply C.rel_bind h
          intro item
          apply C.rel_pure
  | plain type names =>
      apply C.rel_bind h
      intro t
      apply C.rel_pure

theorem rel_resolveStatement {statement : Text}
    (h : ∀ type : Text, type.length ≤ statement.length →
      C.rel (resolve type) fun i => resolve' i type) :
  C.rel (resolveStatement scope resolve statement)
    fun i => resolveStatement scope (resolve' i) statement
  := by
  unfold resolveStatement
  rcases hstatement : Statement.ofText statement with _ | m | _
  · apply C.rel_pure
  · apply C.rel_resolveMember
    apply h
    apply (Statement.infix_of_ofText hstatement).1.length_le
  · apply C.rel_bind (C.rel_warn _)
    intro _
    apply C.rel_pure

theorem rel_resolveStatements {statements : List Text}
    (h : ∀ statement ∈ statements, ∀ type : Text, type.length ≤ statement.length →
      C.rel (resolve type) fun i => resolve' i type) :
  C.rel (resolveStatements scope resolve statements)
    fun i => resolveStatements scope (resolve' i) statements
  := by
  induction statements with
  | nil => apply C.rel_pure
  | cons statement statements ih =>
      apply C.rel_bind (C.rel_resolveStatement scope (h statement List.mem_cons_self))
      intro fields
      apply C.rel_bind (ih fun other hother => h other (List.mem_cons_of_mem statement hother))
      intro rest
      apply C.rel_pure

/-- The resolutions of a body correspond if those of the types in it do. -/
theorem rel_resolveBody {body : Text}
    (h : ∀ type : Text, type.length ≤ body.length →
      C.rel (resolve type) fun i => resolve' i type) :
  C.rel (resolveBody scope resolve body) fun i => resolveBody scope (resolve' i) body
  := by
  apply C.rel_bind
  · apply C.rel_resolveStatements
    intro statement hstatement type htype
    apply h type (Nat.le_trans htype (remnant_of_mem_statements hstatement).length_le)
  · intro fields
    apply C.rel_pure

end Correspondence

end ContractInterface.Header
