import ContractInterface.Proofs.Resolution.Correspondence
import ContractInterface.Proofs.Resolution.Invariant

/-!
# What resolutions leave alone

From every state, whatever its memo holds, a resolution advances the state and does nothing else
to it.
-/

namespace ContractInterface.Header

open Resolution

/-- From every state, a resolution advances the state. -/
def Advancing {α : Type} (x : Resolution α) : Prop :=
  ∀ s : ResolverState, s.Advances (x.outcome s).2

theorem Advancing.bind {α β : Type} {x : Resolution α} {f : α → Resolution β} (hx : Advancing x)
    (hf : ∀ a, Advancing (f a)) :
  Advancing (x >>= f)
  := by
  intro s
  have hadvances := hx s
  rcases h : x.outcome s with ⟨e | a, s'⟩
  · rw [h] at hadvances
    rw [outcome_bind_error h]
    apply hadvances
  · rw [h] at hadvances
    rw [outcome_bind_ok h]
    apply hadvances.trans (hf a s')

/-- Composition respects advancing the state. -/
def advancing : Correspondence Unit where
  rel x _ := Advancing x
  rel_pure a s := .refl s
  rel_ofNumeral x s := by
    cases x with
    | error e => apply ResolverState.Advances.refl
    | ok a => apply ResolverState.Advances.refl
  rel_warn message s := .of_counts [message] s.memo.hits s.memo.misses
  rel_bind hx hf := hx.bind hf

section Step

variable {resolve : Text → Resolution TypeDesc} (h : ∀ type, Advancing (resolve type))

include h

theorem advancing_resolveBody (scope : Scope) (body : Text) :
  Advancing (resolveBody scope resolve body)
  := by
  change advancing.rel _ fun _ => resolveBody scope resolve body
  apply advancing.rel_resolveBody
  intro type _
  apply h

theorem advancing_resolveStructWith (scope : Scope) (name : String) :
  Advancing (resolveStructWith scope resolve name)
  := by
  intro s
  have hcourse := structCourse scope resolve s name
  generalize (resolveStructWith scope resolve name).outcome s = o at hcourse ⊢
  cases hcourse with
  | known hget => apply ResolverState.Advances.of_memo_counts
  | absent hget hbody => apply ResolverState.Advances.of_memo_counts
  | marked body hget hbody hmark => apply ResolverState.Advances.of_counts
  | resolved body type s' hget hbody hmark hresolve =>
      have hadvances := advancing_resolveBody h scope body (s.enter name)
      rw [hresolve] at hadvances
      apply hadvances.put _ hget hmark
  | stopped body e s' hget hbody hmark hresolve =>
      have hadvances := advancing_resolveBody h scope body (s.enter name)
      rw [hresolve] at hadvances
      apply hadvances.abandon hmark

theorem advancing_resolveAliasWith (name : String) (target : Text) :
  Advancing (resolveAliasWith resolve name target)
  := by
  intro s
  have hcourse := aliasCourse resolve s name target
  generalize (resolveAliasWith resolve name target).outcome s = o at hcourse ⊢
  cases hcourse with
  | marked hmark => apply ResolverState.Advances.of_counts [_] s.memo.hits s.memo.misses
  | expanded r s' hmark hresolve =>
      have hadvances := h target { s with expanding := name :: s.expanding }
      rw [hresolve] at hadvances
      apply hadvances.expand hmark

theorem advancing_resolveStep (scope : Scope) (declared : Text) :
  Advancing (resolveStep scope resolve declared)
  := by
  rcases hname : CatalogType.ofName? (typeName declared) with _ | known
  · rcases halias : scope.aliasOf? declared with _ | target
    · rw [resolveStep_struct resolve hname halias]
      apply (advancing_resolveStructWith h scope _).bind
      intro found
      cases found with
      | none => apply advancing.rel_giveUp
      | some type => apply advancing.rel_pure
    · rw [resolveStep_alias resolve hname halias]
      apply advancing_resolveAliasWith h
  · rw [resolveStep_catalog resolve hname]
    change advancing.rel _ fun _ => resolveCatalog scope resolve known
    apply advancing.rel_resolveCatalog
    intro item _ _
    apply h

end Step

/-- The resolution of a declared type advances the state, to whatever depth. -/
theorem advancing_resolveWithin (scope : Scope) (depth : Nat) (declared : Text) :
  Advancing (resolveWithin scope depth declared)
  := by
  induction depth generalizing declared with
  | zero =>
      intro s
      apply ResolverState.Advances.refl
  | succ depth ih => apply advancing_resolveStep ih

end ContractInterface.Header
