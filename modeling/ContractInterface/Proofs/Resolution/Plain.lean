import ContractInterface.Proofs.Resolution.Depth
import ContractInterface.Proofs.Resolution.Frame

/-!
# Resolving without a memo

The plain resolution of a type follows every reference anew: it keeps no memo and marks no names.
So its result does not depend on the state, which only collects its warnings (`Yields`).  A type
that refers to itself is not cut, but is too deep for every depth.  Where the plain resolution is
done within some depth, its result is what the type means.
-/

namespace ContractInterface.Header

open Resolution

/-! ### Results that do not depend on the state -/

section Results

variable {α β : Type} {x x' : Resolution α} {f : α → Resolution β}

/-- From every state, a resolution gives the same result. -/
def Yields (x : Resolution α) (r : Except ResolveError α) : Prop :=
  ∀ s : ResolverState, (x.outcome s).1 = r

theorem Yields.unique {r r' : Except ResolveError α} (h : Yields x r) (h' : Yields x r') :
  r = r'
  := by
  rw [← h .start, h' .start]

theorem Yields.pure (a : α) :
  Yields (pure a) (.ok a)
  := fun _ => rfl

theorem Yields.throw (e : ResolveError) :
  Yields (throw e : Resolution α) (.error e)
  := fun _ => rfl

theorem Yields.bind_ok {a : α} {r : Except ResolveError β} (h : Yields x (.ok a))
    (hf : Yields (f a) r) :
  Yields (x >>= f) r
  := by
  intro s
  have hx := h s
  rcases hs : x.outcome s with ⟨e | a', s'⟩
  · rw [hs] at hx
    contradiction
  · rw [hs] at hx
    obtain rfl := Except.ok.inj hx
    rw [outcome_bind_ok hs]
    apply hf

theorem Yields.bind_error {e : ResolveError} (h : Yields x (.error e)) :
  Yields (x >>= f) (.error e)
  := by
  intro s
  have hx := h s
  rcases hs : x.outcome s with ⟨e' | a, s'⟩
  · rw [hs] at hx
    rw [outcome_bind_error hs]
    obtain rfl := Except.error.inj hx
    rfl
  · rw [hs] at hx
    contradiction

theorem Yields.of_agrees (hagrees : ∀ s, AgreesIfDone s x x') {r : Except ResolveError α}
    (h : Yields x r) (hr : r ≠ .error .tooDeep) :
  Yields x' r
  := by
  intro s
  rw [hagrees s, h s]
  rw [h s]
  apply hr

/-- A resolution has one result from all states. -/
def Steady (x : Resolution α) : Prop :=
  ∃ r, Yields x r

theorem Steady.bind (hx : Steady x) (hf : ∀ a, Steady (f a)) :
  Steady (x >>= f)
  := by
  obtain ⟨e | a, hx⟩ := hx
  · exact ⟨_, hx.bind_error⟩
  · obtain ⟨r, hr⟩ := hf a
    exact ⟨r, hx.bind_ok hr⟩

/-- What is too deep remains so if fewer references may be followed. -/
theorem Steady.tooDeep_of_agrees (h : Steady x) (hagrees : ∀ s, AgreesIfDone s x x')
    (hdeep : Yields x' (.error .tooDeep)) :
  Yields x (.error .tooDeep)
  := by
  obtain ⟨r, hr⟩ := h
  by_cases hdone : r = .error .tooDeep
  · rw [hdone] at hr
    apply hr
  · rw [hdeep.unique (hr.of_agrees hagrees hdone)]
    apply hr

/-- A resolution that neither reads the state nor puts anything into the memo. -/
structure Passive (x : Resolution α) : Prop where
  advances : Advancing x
  steady : Steady x
  entries : ∀ s, (x.outcome s).2.memo.entries = s.memo.entries

theorem passive_pure (a : α) :
  Passive (pure a)
  := ⟨advancing.rel_pure a, ⟨_, .pure a⟩, fun _ => rfl⟩

theorem passive_throw (e : ResolveError) :
  Passive (throw e : Resolution α)
  := ⟨fun s => .refl s, ⟨_, .throw e⟩, fun _ => rfl⟩

theorem passive_ofNumeral (x : Except Numeral.Error α) :
  Passive (ofNumeral x)
  := by
  cases x with
  | error e => apply passive_throw
  | ok a => apply passive_pure

theorem passive_warn (message : String) :
  Passive (warn message)
  := ⟨advancing.rel_warn message, ⟨.ok (), fun _ => rfl⟩, fun _ => rfl⟩

/-- Composition respects having one result. -/
def steady : Correspondence Unit where
  rel x _ := Steady x
  rel_pure a := (passive_pure a).steady
  rel_ofNumeral x := (passive_ofNumeral x).steady
  rel_warn message := (passive_warn message).steady
  rel_bind hx hf := hx.bind hf

end Results

/-! ### The plain step -/

/-- The struct that the header declares under a name. -/
def plainStructWith (scope : Scope) (resolve : Text → Resolution TypeDesc) (name : String) :
    Resolution (Option TypeDesc) :=
  match structBody? scope.source name.toList with
  | none => return none
  | some body => do return some (← resolveBody scope resolve body)

/-- One step in the plain resolution of a declared type. -/
def plainStep (scope : Scope) (resolve : Text → Resolution TypeDesc) (declared : Text) :
    Resolution TypeDesc :=
  match CatalogType.ofName? (typeName declared) with
  | some known => resolveCatalog scope resolve known
  | none =>
    match scope.aliasOf? declared with
    | some target => resolve target
    | none => do
      match ← plainStructWith scope resolve (String.ofList (typeName declared)) with
      | some type => return type
      | none =>
        giveUp ("Unknown type: " ++ String.ofList (typeName declared) ++ " (treated as bytes[0])")

/-- The plain resolution of a declared type, following at most a number of references. -/
def plainWithin (scope : Scope) : Nat → Text → Resolution TypeDesc
  | 0, _ => throw .tooDeep
  | depth + 1, declared => plainStep scope (plainWithin scope depth) declared

/-- The plain resolution of a struct, following at most a number of references. -/
def plainStructWithin (scope : Scope) : Nat → String → Resolution (Option TypeDesc)
  | 0, _ => throw .tooDeep
  | depth + 1, name => plainStructWith scope (plainWithin scope depth) name

section Step

variable {scope : Scope} (resolve : Text → Resolution TypeDesc) {declared : Text}

theorem plainStructWith_absent {name : String}
    (h : structBody? scope.source name.toList = none) :
  plainStructWith scope resolve name = pure none
  := by
  rw [plainStructWith, h]

theorem plainStructWith_body {name : String} {body : Text}
    (h : structBody? scope.source name.toList = some body) :
  plainStructWith scope resolve name = (do return some (← resolveBody scope resolve body))
  := by
  rw [plainStructWith, h]

theorem plainStep_catalog {known : CatalogType}
    (h : CatalogType.ofName? (typeName declared) = some known) :
  plainStep scope resolve declared = resolveCatalog scope resolve known
  := by
  unfold plainStep
  rw [h]

theorem plainStep_alias {target : Text} (h : CatalogType.ofName? (typeName declared) = none)
    (htarget : scope.aliasOf? declared = some target) :
  plainStep scope resolve declared = resolve target
  := by
  unfold plainStep
  rw [h]
  dsimp only
  rw [htarget]

theorem plainStep_struct (h : CatalogType.ofName? (typeName declared) = none)
    (htarget : scope.aliasOf? declared = none) :
  plainStep scope resolve declared = (do
    match ← plainStructWith scope resolve (String.ofList (typeName declared)) with
    | some type => return type
    | none =>
      giveUp ("Unknown type: " ++ String.ofList (typeName declared) ++ " (treated as bytes[0])"))
  := by
  unfold plainStep
  rw [h]
  dsimp only
  rw [htarget]

end Step

/-- Plain resolutions look a type up by its name. -/
theorem plainWithin_congr (scope : Scope) (depth : Nat) {declared declared' : Text}
    (h : typeName declared = typeName declared') :
  plainWithin scope depth declared = plainWithin scope depth declared'
  := by
  cases depth with
  | zero => rfl
  | succ depth =>
      rw [plainWithin, plainWithin]
      unfold plainStep Scope.aliasOf?
      rw [h]

/-! ### Correspondence of plain resolutions -/

namespace Correspondence

variable {ι : Type} (C : Correspondence ι) (scope : Scope) {resolve : Text → Resolution TypeDesc}
  {resolve' : ι → Text → Resolution TypeDesc}
  (h : ∀ type, C.rel (resolve type) fun i => resolve' i type)

include h

theorem rel_plainStructWith (name : String) :
  C.rel (plainStructWith scope resolve name) fun i => plainStructWith scope (resolve' i) name
  := by
  unfold plainStructWith
  cases structBody? scope.source name.toList with
  | none => apply C.rel_pure
  | some body =>
      apply C.rel_bind (C.rel_resolveBody scope fun type _ => h type)
      intro type
      apply C.rel_pure

/-- The plain steps of a type correspond if the plain resolutions do. -/
theorem rel_plainStep (declared : Text) :
  C.rel (plainStep scope resolve declared) fun i => plainStep scope (resolve' i) declared
  := by
  unfold plainStep
  cases CatalogType.ofName? (typeName declared) with
  | some known => apply C.rel_resolveCatalog scope fun item _ _ => h item
  | none =>
      cases scope.aliasOf? declared with
      | some target => apply h
      | none =>
          apply C.rel_bind (C.rel_plainStructWith scope h _)
          intro found
          cases found with
          | none => apply C.rel_giveUp
          | some type => apply C.rel_pure

end Correspondence

section Within

variable (scope : Scope)

/-- Plain resolutions have one result from all states. -/
theorem steady_plainWithin (depth : Nat) (declared : Text) :
  Steady (plainWithin scope depth declared)
  := by
  induction depth generalizing declared with
  | zero => exact ⟨_, .throw .tooDeep⟩
  | succ depth ih =>
      change steady.rel _ fun _ => plainStep scope (plainWithin scope depth) declared
      apply steady.rel_plainStep
      apply ih

theorem steady_plainStructWithin (depth : Nat) (name : String) :
  Steady (plainStructWithin scope depth name)
  := by
  cases depth with
  | zero => exact ⟨_, .throw .tooDeep⟩
  | succ depth =>
      change steady.rel _ fun _ => plainStructWith scope (plainWithin scope depth) name
      apply steady.rel_plainStructWith
      apply steady_plainWithin

/-- A plain resolution that is done within some depth is done in the same way within a greater
one. -/
theorem deepens_plainWithin {depth depth' : Nat} (h : depth ≤ depth') :
  Deepens (plainWithin scope depth) (plainWithin scope depth')
  := by
  induction depth generalizing depth' with
  | zero =>
      intro s declared hdone
      contradiction
  | succ depth ih =>
      obtain ⟨depth', rfl⟩ : ∃ n, depth' = n + 1 := Nat.exists_eq_succ_of_ne_zero (by omega)
      intro s declared
      have hstep : agreement.rel (plainStep scope (plainWithin scope depth) declared)
          fun _ => plainStep scope (plainWithin scope depth') declared := by
        apply agreement.rel_plainStep
        intro type s
        apply ih (by omega)
      apply hstep

theorem agrees_plainStructWithin {depth depth' : Nat} (h : depth ≤ depth') (name : String)
    (s : ResolverState) :
  AgreesIfDone s (plainStructWithin scope depth name) (plainStructWithin scope depth' name)
  := by
  cases depth with
  | zero =>
      intro hdone
      contradiction
  | succ depth =>
      obtain ⟨depth', rfl⟩ : ∃ n, depth' = n + 1 := Nat.exists_eq_succ_of_ne_zero (by omega)
      have hstruct : agreement.rel (plainStructWith scope (plainWithin scope depth) name)
          fun _ => plainStructWith scope (plainWithin scope depth') name := by
        apply agreement.rel_plainStructWith
        intro type s
        apply deepens_plainWithin scope (by omega)
      apply hstruct

end Within

end ContractInterface.Header
