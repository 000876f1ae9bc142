import ContractInterface.Proofs.Resolution.Reach

/-!
# Memos stay reliable

What is put into the memo for a struct that contains itself depends on the marks at that time: the
struct is cut wherever it is met again.  The plain resolution of such a struct is too deep for
every depth, so the memo may hold anything for it and still be reliable.

No other struct is cut, as long as only names that are too deep for every depth are marked
(`AllClear`).  Such a resolution either has a plain counterpart that is done within some depth, and
then it reaches what that gives; or it has none, and then its name may be marked as well.
-/

namespace ContractInterface.Header

open Resolution

/-! ### Marks that are out of reach for every depth -/

/-- All that is marked is too deep for every depth. -/
def AllClear (scope : Scope) (s : ResolverState) : Prop :=
  ∀ depth : Nat, Clear scope depth s

namespace AllClear

variable {scope : Scope} {s s' : ResolverState}

theorem of_advances (h : AllClear scope s) (hadvances : s.Advances s') : AllClear scope s'
  := fun depth => (h depth).of_advances hadvances

theorem enter {name : String} (h : AllClear scope s)
    (hname : ∀ depth, Yields (plainStructWithin scope depth name) (.error .tooDeep)) :
  AllClear scope (s.enter name)
  := fun depth => (h depth).enter (hname depth)

theorem expand {declared : Text} (h : AllClear scope s)
    (hdeclared : ∀ depth, Yields (plainWithin scope depth declared) (.error .tooDeep)) :
  AllClear scope { s with expanding := String.ofList (typeName declared) :: s.expanding }
  := fun depth => (h depth).expand (hdeclared depth)

end AllClear

/-- A plain resolution is done within some depth, or too deep for every one. -/
theorem done_or_tooDeep {α : Type} {y : Nat → Resolution α} (h : ∀ depth, Steady (y depth)) :
  (∃ depth r, Yields (y depth) r ∧ r ≠ .error .tooDeep) ∨
  ∀ depth, Yields (y depth) (.error .tooDeep)
  := by
  by_contra! hcontra
  obtain ⟨hdeep, depth, hdepth⟩ := hcontra
  obtain ⟨r, hr⟩ := h depth
  apply hdepth
  rw [← hdeep depth r hr]
  apply hr

/-! ### Resolutions that leave the memo reliable -/

/-- From every state in which all that is marked is too deep for every depth, a resolution leaves
a reliable memo reliable. -/
structure Preserves {α : Type} (scope : Scope) (x : Resolution α) : Prop where
  advances : Advancing x
  reliable : ∀ {s : ResolverState}, scope.Reliable s → AllClear scope s →
    (x.outcome s).1 ≠ .error .tooDeep → scope.Reliable (x.outcome s).2

namespace Preserves

variable {α β : Type} {scope : Scope}

theorem of_passive {x : Resolution α} (h : Passive x) :
  Preserves scope x
  where
  advances := h.advances
  reliable := by
    intro s hreliable _ _
    apply hreliable.of_entries (h.entries s)

theorem bind {x : Resolution α} {f : α → Resolution β} (hx : Preserves scope x)
    (hf : ∀ a, Preserves scope (f a)) :
  Preserves scope (x >>= f)
  where
  advances := hx.advances.bind fun a => (hf a).advances
  reliable := by
    intro s hreliable hclear hdone
    have hadvances := hx.advances s
    have hreliable' := hx.reliable hreliable hclear
    rcases hs : x.outcome s with ⟨e | a, s'⟩
    · rw [hs] at hreliable'
      rw [outcome_bind_error hs] at hdone ⊢
      apply hreliable' (by simpa using hdone)
    · rw [hs] at hadvances hreliable'
      rw [outcome_bind_ok hs] at hdone ⊢
      apply (hf a).reliable (hreliable' (by simp)) (hclear.of_advances hadvances) hdone

/-- A resolution whose plain counterpart is done within some depth. -/
theorem of_reaches {x x' y : Resolution α} {depth : Nat} {r : Except ResolveError α}
    (h : Reaches scope depth x y) (hr : Yields y r) (hdone : r ≠ .error .tooDeep)
    (hadvances : Advancing x')
    (hagrees : ∀ s, (x.outcome s).1 ≠ .error .tooDeep → (x'.outcome s).1 ≠ .error .tooDeep →
      x'.outcome s = x.outcome s) :
  Preserves scope x'
  where
  advances := hadvances
  reliable := by
    intro s hreliable hclear hdone'
    obtain ⟨hresult, hreliable'⟩ := h.reaches hr hdone hreliable (hclear depth)
    rw [hagrees s (by rw [hresult]; apply hdone) hdone']
    apply hreliable'

end Preserves

/-- Composition respects that memos stay reliable. -/
def preserving (scope : Scope) : Correspondence Unit where
  rel x _ := Preserves scope x
  rel_pure a := .of_passive (passive_pure a)
  rel_ofNumeral x := .of_passive (passive_ofNumeral x)
  rel_warn message := .of_passive (passive_warn message)
  rel_bind hx hf := hx.bind hf

section Step

variable {scope : Scope} {depth : Nat}

/-- Two depths within both of which a resolution is done. -/
theorem outcome_eq_of_done {α : Type} {x : Nat → Resolution α}
    (h : ∀ {depth depth'}, depth ≤ depth' → ∀ s, AgreesIfDone s (x depth) (x depth'))
    {depth depth' : Nat} {s : ResolverState} (hdone : ((x depth).outcome s).1 ≠ .error .tooDeep)
    (hdone' : ((x depth').outcome s).1 ≠ .error .tooDeep) :
  (x depth').outcome s = (x depth).outcome s
  := by
  rcases Nat.le_total depth depth' with hle | hle
  · apply h hle s hdone
  · symm
    apply h hle s hdone'

theorem preserves_resolveBody
    (h : ∀ type, Preserves scope (resolveWithin scope depth type)) (body : Text) :
  Preserves scope (resolveBody scope (resolveWithin scope depth) body)
  := by
  change (preserving scope).rel _ fun _ => resolveBody scope (resolveWithin scope depth) body
  apply (preserving scope).rel_resolveBody
  intro type _
  apply h

theorem preserves_structWithin_succ
    (h : ∀ type, Preserves scope (resolveWithin scope depth type)) (name : String) :
  Preserves scope (structWithin scope (depth + 1) name)
  := by
  have hadvances : Advancing (structWithin scope (depth + 1) name) :=
    advancing_resolveStructWith (advancing_resolveWithin scope depth) scope name
  rcases done_or_tooDeep (steady_plainStructWithin scope · name) with ⟨least, r, hr, hdone⟩ | hdeep
  · apply Preserves.of_reaches ((reaches_within scope least).2 name) hr hdone hadvances
    intro s
    apply outcome_eq_of_done (x := fun depth => structWithin scope depth name)
    intro depth depth' hle s
    apply agrees_structWithin hle
  · use hadvances
    intro s hreliable hclear hdone
    have hcourse := structCourse scope (resolveWithin scope depth) s name
    rw [structWithin] at hdone ⊢
    generalize (resolveStructWith scope (resolveWithin scope depth) name).outcome s = o
      at hcourse hdone ⊢
    have hbody body := (preserves_resolveBody h body).reliable (hreliable.enter name)
      (hclear.enter hdeep)
    cases hcourse with
    | known hget => apply hreliable.of_entries rfl
    | absent hget hnone => apply hreliable.of_entries rfl
    | marked body hget hsome hmark => apply hreliable.of_entries rfl
    | resolved body type s' hget hsome hmark hresolve =>
        have hreliable' := hbody body
        rw [hresolve] at hreliable'
        apply (hreliable' (by simp)).put
        -- the struct is too deep for every depth, so the memo may hold anything for it
        intro r hr hdone'
        exfalso
        apply hdone' (hr.unique ⟨0, fun depth _ => hdeep depth⟩)
    | stopped body e s' hget hsome hmark hresolve =>
        have hreliable' := hbody body
        rw [hresolve] at hreliable'
        apply (hreliable' (by simpa using hdone)).of_entries rfl

theorem preserves_resolveWithin_alias
    (h : ∀ type, Preserves scope (resolveWithin scope depth type)) {declared target : Text}
    (hname : CatalogType.ofName? (typeName declared) = none)
    (halias : scope.aliasOf? declared = some target) :
  Preserves scope (resolveWithin scope (depth + 1) declared)
  := by
  have hadvances := advancing_resolveWithin scope (depth + 1) declared
  rcases done_or_tooDeep (steady_plainWithin scope · declared) with ⟨least, r, hr, hdone⟩ | hdeep
  · apply Preserves.of_reaches ((reaches_within scope least).1 declared) hr hdone hadvances
    intro s
    apply outcome_eq_of_done (x := fun depth => resolveWithin scope depth declared)
    intro depth depth' hle s
    apply deepens_resolveWithin scope hle
  · use hadvances
    intro s hreliable hclear hdone
    rw [resolveWithin, resolveStep_alias _ hname halias] at hdone ⊢
    have hcourse :=
      aliasCourse (resolveWithin scope depth) s (String.ofList (typeName declared)) target
    generalize (resolveAliasWith (resolveWithin scope depth)
      (String.ofList (typeName declared)) target).outcome s = o at hcourse hdone ⊢
    cases hcourse with
    | marked hmark => apply hreliable.of_entries rfl
    | expanded r s' hmark hresolve =>
        have hreliable' := (h target).reliable (hreliable.expand _) (hclear.expand hdeep)
        rw [hresolve] at hreliable'
        apply (hreliable' hdone).of_entries rfl

end Step

/-- To whatever depth, the resolution of a declared type leaves the memo reliable. -/
theorem preserves_resolveWithin (scope : Scope) (depth : Nat) (declared : Text) :
  Preserves scope (resolveWithin scope depth declared)
  := by
  induction depth generalizing declared with
  | zero => apply Preserves.of_passive (passive_throw .tooDeep)
  | succ depth ih =>
      rcases hname : CatalogType.ofName? (typeName declared) with _ | known
      · rcases halias : scope.aliasOf? declared with _ | target
        · rw [resolveWithin, resolveStep_struct _ hname halias]
          apply (preserves_structWithin_succ ih _).bind
          intro found
          cases found with
          | none => apply (preserving scope).rel_giveUp
          | some type => apply (preserving scope).rel_pure
        · apply preserves_resolveWithin_alias ih hname halias
      · rw [resolveWithin, resolveStep_catalog _ hname]
        change (preserving scope).rel _ fun _ =>
          resolveCatalog scope (resolveWithin scope depth) known
        apply (preserving scope).rel_resolveCatalog
        intro item _ _
        apply ih

theorem preserves_resolveStruct (scope : Scope) (name : String) :
  Preserves scope (scope.resolveStruct name)
  := preserves_structWithin_succ (preserves_resolveWithin scope (scope.depth 0)) name

end ContractInterface.Header
