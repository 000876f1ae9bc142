import ContractInterface.Proofs.Resolution.Correspondence
import Mathlib.Data.List.Basic

/-!
# The depth of a resolution

The depth to which a type is resolved bounds how many references are followed, and nothing else:
a resolution that does not stop because of the depth gives the same outcome to every greater
depth.
-/

namespace ContractInterface.Header

open Resolution

/-- From a state, two resolutions have the same outcome unless the first one is too deep. -/
def AgreesIfDone {α : Type} (s : ResolverState) (x x' : Resolution α) : Prop :=
  (x.outcome s).1 ≠ .error .tooDeep → x'.outcome s = x.outcome s

namespace AgreesIfDone

variable {α β : Type} {s : ResolverState}

theorem refl (x : Resolution α) :
  AgreesIfDone s x x
  := fun _ => rfl

theorem bind {x x' : Resolution α} {f f' : α → Resolution β} (hx : AgreesIfDone s x x')
    (hf : ∀ a s', AgreesIfDone s' (f a) (f' a)) :
  AgreesIfDone s (x >>= f) (x' >>= f')
  := by
  intro hdone
  rcases h : x.outcome s with ⟨e | a, s'⟩
  · rw [outcome_bind_error h] at hdone ⊢
    have hx' := hx (by simpa [h] using hdone)
    rw [h] at hx'
    apply outcome_bind_error hx'
  · rw [outcome_bind_ok h] at hdone ⊢
    have hx' := hx (by simp [h])
    rw [h] at hx'
    rw [outcome_bind_ok hx']
    apply hf a s' hdone

end AgreesIfDone

/-- Composition respects agreement. -/
def agreement : Correspondence Unit where
  rel x x' := ∀ s, AgreesIfDone s x (x' ())
  rel_pure _ _ := .refl _
  rel_ofNumeral _ _ := .refl _
  rel_warn _ _ := .refl _
  rel_bind hx hf s := (hx s).bind fun a s' => hf a s'

/-- Of two ways to resolve types, the second gives what the first one gives unless that is too
deep. -/
def Deepens (resolve resolve' : Text → Resolution TypeDesc) : Prop :=
  ∀ s declared, AgreesIfDone s (resolve declared) (resolve' declared)

section Step

variable {scope : Scope} {resolve resolve' : Text → Resolution TypeDesc} {s : ResolverState}

theorem agrees_resolveBody (h : Deepens resolve resolve') (body : Text) :
  AgreesIfDone s (resolveBody scope resolve body) (resolveBody scope resolve' body)
  := by
  have hbody : agreement.rel (resolveBody scope resolve body)
      fun _ => resolveBody scope resolve' body := by
    apply agreement.rel_resolveBody
    intro type _ s
    apply h
  apply hbody

theorem agrees_resolveStructWith (h : Deepens resolve resolve') (name : String) :
  AgreesIfDone s (resolveStructWith scope resolve name) (resolveStructWith scope resolve' name)
  := by
  intro hdone
  rcases hget : s.memo.entries.get? name with _ | type
  · rcases hbody : structBody? scope.source name.toList with _ | body
    · rw [outcome_resolveStructWith_absent scope resolve hget hbody,
        outcome_resolveStructWith_absent scope resolve' hget hbody]
    · by_cases hmark : name ∈ s.memo.inProgress
      · rw [outcome_resolveStructWith_marked scope resolve hget hbody hmark,
          outcome_resolveStructWith_marked scope resolve' hget hbody hmark]
      · have hagrees : AgreesIfDone (s.enter name) (resolveBody scope resolve body)
            (resolveBody scope resolve' body) := agrees_resolveBody h body
        rcases hr : (resolveBody scope resolve body).outcome (s.enter name) with ⟨e | type, s'⟩
        · rw [outcome_resolveStructWith_error scope resolve hget hbody hmark hr] at hdone ⊢
          have hr' := hagrees (by simpa [hr] using hdone)
          rw [hr] at hr'
          apply outcome_resolveStructWith_error scope resolve' hget hbody hmark hr'
        · rw [outcome_resolveStructWith_ok scope resolve hget hbody hmark hr]
          have hr' := hagrees (by simp [hr])
          rw [hr] at hr'
          apply outcome_resolveStructWith_ok scope resolve' hget hbody hmark hr'
  · rw [outcome_resolveStructWith_known scope resolve hget,
      outcome_resolveStructWith_known scope resolve' hget]

theorem agrees_resolveAliasWith (h : Deepens resolve resolve') (name : String)
    (target : Text) :
  AgreesIfDone s (resolveAliasWith resolve name target) (resolveAliasWith resolve' name target)
  := by
  intro hdone
  by_cases hmark : name ∈ s.expanding
  · rw [outcome_resolveAliasWith_marked resolve target hmark,
      outcome_resolveAliasWith_marked resolve' target hmark]
  · rw [outcome_resolveAliasWith_fresh resolve target hmark] at hdone ⊢
    rw [outcome_resolveAliasWith_fresh resolve' target hmark, h _ target hdone]

theorem Deepens.step (h : Deepens resolve resolve') :
  Deepens (resolveStep scope resolve) (resolveStep scope resolve')
  := by
  intro s declared
  rcases hname : CatalogType.ofName? (typeName declared) with _ | known
  · rcases halias : scope.aliasOf? declared with _ | target
    · rw [resolveStep_struct resolve hname halias, resolveStep_struct resolve' hname halias]
      apply AgreesIfDone.bind (agrees_resolveStructWith h _)
      intro found s'
      apply AgreesIfDone.refl
    · rw [resolveStep_alias resolve hname halias, resolveStep_alias resolve' hname halias]
      apply agrees_resolveAliasWith h
  · rw [resolveStep_catalog resolve hname, resolveStep_catalog resolve' hname]
    have hcatalog : agreement.rel (resolveCatalog scope resolve known)
        fun _ => resolveCatalog scope resolve' known := by
      apply agreement.rel_resolveCatalog
      intro item _ _ s
      apply h
    apply hcatalog

end Step

/-- A resolution that is done within some depth is done in the same way within a greater one. -/
theorem deepens_resolveWithin (scope : Scope) {depth depth' : Nat} (h : depth ≤ depth') :
  Deepens (resolveWithin scope depth) (resolveWithin scope depth')
  := by
  induction depth generalizing depth' with
  | zero =>
      intro s declared hdone
      contradiction
  | succ depth ih =>
      obtain ⟨depth', rfl⟩ : ∃ n, depth' = n + 1 := Nat.exists_eq_succ_of_ne_zero (by omega)
      apply Deepens.step (ih (by omega))

theorem outcome_resolveWithin_of_le {scope : Scope} {depth depth' : Nat} {declared : Text}
    {s s' : ResolverState} {type : TypeDesc} (h : depth ≤ depth')
    (hok : (resolveWithin scope depth declared).outcome s = (.ok type, s')) :
  (resolveWithin scope depth' declared).outcome s = (.ok type, s')
  := by
  rw [deepens_resolveWithin scope h s declared (by simp [hok]), hok]

theorem Scope.depth_mono (scope : Scope) {m n : Nat} (h : m ≤ n) :
  scope.depth m ≤ scope.depth n
  := by
  apply Nat.mul_le_mul_left
  omega

/-- What a type resolves to does not depend on the text in which it stands. -/
theorem Scope.outcome_resolveWithin_of_resolve {scope : Scope} {declared : Text} {n : Nat}
    {s s' : ResolverState} {type : TypeDesc} (h : declared.length ≤ n)
    (hok : (scope.resolve declared).outcome s = (.ok type, s')) :
  (resolveWithin scope (scope.depth n) declared).outcome s = (.ok type, s')
  := outcome_resolveWithin_of_le (scope.depth_mono h) hok

/-- A type is looked up by its name, so texts with the same name resolve alike. -/
theorem resolveWithin_congr (scope : Scope) (depth : Nat) {declared declared' : Text}
    (h : typeName declared = typeName declared') :
  resolveWithin scope depth declared = resolveWithin scope depth declared'
  := by
  cases depth with
  | zero => rfl
  | succ depth =>
      rw [resolveWithin, resolveWithin]
      unfold resolveStep
      rw [h]

end ContractInterface.Header
