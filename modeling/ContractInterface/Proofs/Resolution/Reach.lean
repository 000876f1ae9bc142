import ContractInterface.Proofs.Resolution.Faithful

/-!
# Resolutions that never meet a mark

What the plain resolution gives within some depth, the resolution with a memo gives too, from every
state in which all that is marked is too deep for that depth (`Clear`).  Such a resolution never
meets a mark, since the plain resolution would have to go through the marked name once more.

A name is marked while its struct or alias is resolved, so it has to be too deep for the depth that
is left then.  It is, if the resolution starts with the least depth for which the name is not too
deep; and a greater depth makes no difference.

What the memo holds has to be what the plain resolution gives only where that is ever done
(`Scope.Reliable`): no other name is looked up on the way.
-/

namespace ContractInterface.Header

open Resolution

/-! ### Marks out of reach -/

/-- All that is marked is too deep for the plain resolution within a depth. -/
structure Clear (scope : Scope) (depth : Nat) (s : ResolverState) : Prop where
  inProgress : ∀ name ∈ s.memo.inProgress,
    Yields (plainStructWithin scope depth name) (.error .tooDeep)
  expanding : ∀ declared : Text, String.ofList (typeName declared) ∈ s.expanding →
    Yields (plainWithin scope depth declared) (.error .tooDeep)

section Clear

variable {scope : Scope} {depth depth' : Nat} {s s' : ResolverState}

namespace Clear

theorem start : Clear scope depth .start
  where
  inProgress := by
    intro name hname
    contradiction
  expanding := by
    intro declared hdeclared
    contradiction

/-- What is too deep for some depth is too deep for smaller ones. -/
theorem mono (h : Clear scope depth' s) (hle : depth ≤ depth') : Clear scope depth s
  where
  inProgress := by
    intro name hname
    apply (steady_plainStructWithin scope depth name).tooDeep_of_agrees
      (agrees_plainStructWithin scope hle name) (h.inProgress name hname)
  expanding := by
    intro declared hdeclared
    apply (steady_plainWithin scope depth declared).tooDeep_of_agrees
      (fun s => deepens_plainWithin scope hle s declared) (h.expanding declared hdeclared)

/-- What a resolution leaves has the same names marked. -/
theorem of_advances (h : Clear scope depth s) (hadvances : s.Advances s') : Clear scope depth s'
  where
  inProgress := by
    rw [hadvances.inProgress]
    apply h.inProgress
  expanding := by
    rw [hadvances.expanding]
    apply h.expanding

theorem enter {name : String} (h : Clear scope depth s)
    (hname : Yields (plainStructWithin scope depth name) (.error .tooDeep)) :
  Clear scope depth (s.enter name)
  where
  inProgress := by
    intro other hother
    rcases List.mem_cons.mp hother with rfl | hother
    · apply hname
    · apply h.inProgress other hother
  expanding := h.expanding

theorem expand {declared : Text} (h : Clear scope depth s)
    (hdeclared : Yields (plainWithin scope depth declared) (.error .tooDeep)) :
  Clear scope depth { s with expanding := String.ofList (typeName declared) :: s.expanding }
  where
  inProgress := h.inProgress
  expanding := by
    intro other hother
    rcases List.mem_cons.mp hother with hsame | hother
    · rw [plainWithin_congr scope depth (String.ofList_inj.mp hsame)]
      apply hdeclared
    · apply h.expanding other hother

end Clear

end Clear

/-! ### Reliable memos -/

/-- Wherever the plain resolution is ever done, the memo holds nothing else than what it gives. -/
def Scope.Reliable (scope : Scope) (s : ResolverState) : Prop :=
  s.Each fun name type => ∀ r : Except ResolveError (Option TypeDesc),
    Eventually (fun depth => plainStructWithin scope depth name) r → r ≠ .error .tooDeep →
    r = .ok (some type)

/-! ### Resolutions that reach what the plain ones give -/

/-- What a plain resolution gives is what a resolution gives from every state with a reliable memo
whose marks are out of reach. -/
structure Reaches {α : Type} (scope : Scope) (depth : Nat) (x y : Resolution α) : Prop where
  advances : Advancing x
  steady : Steady y
  reaches : ∀ {s : ResolverState} {r : Except ResolveError α}, Yields y r →
    r ≠ .error .tooDeep → scope.Reliable s → Clear scope depth s →
    (x.outcome s).1 = r ∧ scope.Reliable (x.outcome s).2

namespace Reaches

variable {α β : Type} {scope : Scope} {depth : Nat}

theorem same {x : Resolution α} (h : Passive x) :
  Reaches scope depth x x
  where
  advances := h.advances
  steady := h.steady
  reaches := by
    intro s r hr _ hreliable _
    exact ⟨hr s, hreliable.of_entries (h.entries s)⟩

theorem mono {x y : Resolution α} (h : Reaches scope depth x y) :
  Reaches scope (depth + 1) x y
  where
  advances := h.advances
  steady := h.steady
  reaches := by
    intro s r hr hdone hreliable hclear
    apply h.reaches hr hdone hreliable (hclear.mono (Nat.le_succ depth))

theorem bind {x y : Resolution α} {f g : α → Resolution β} (hx : Reaches scope depth x y)
    (hf : ∀ a, Reaches scope depth (f a) (g a)) :
  Reaches scope depth (x >>= f) (y >>= g)
  where
  advances := hx.advances.bind fun a => (hf a).advances
  steady := hx.steady.bind fun a => (hf a).steady
  reaches := by
    intro s r hr hdone hreliable hclear
    have hadvances := hx.advances s
    obtain ⟨e | a, hy⟩ := hx.steady
    · obtain rfl := hr.unique hy.bind_error
      obtain ⟨hresult, hreliable'⟩ := hx.reaches hy (by simpa using hdone) hreliable hclear
      rcases hs : x.outcome s with ⟨r', s'⟩
      rw [hs] at hresult hreliable'
      dsimp only at hresult
      rw [hresult] at hs
      rw [outcome_bind_error hs]
      exact ⟨rfl, hreliable'⟩
    · obtain ⟨hresult, hreliable'⟩ := hx.reaches hy (by simp) hreliable hclear
      rcases hs : x.outcome s with ⟨r', s'⟩
      rw [hs] at hresult hreliable' hadvances
      dsimp only at hresult
      rw [hresult] at hs
      rw [outcome_bind_ok hs]
      obtain ⟨r'', hg⟩ := (hf a).steady
      obtain rfl := hr.unique (hy.bind_ok hg)
      apply (hf a).reaches hg hdone hreliable' (hclear.of_advances hadvances)

/-- If a plain resolution is done within a depth, then greater depths make no difference. -/
theorem of_done {x x' y y' : Resolution α} {r : Except ResolveError α}
    (h : Reaches scope depth x y) (hadvances : Advancing x') (hsteady : Steady y')
    (hr : Yields y r) (hdone : r ≠ .error .tooDeep)
    (hx : ∀ s, AgreesIfDone s x x') (hy : ∀ s, AgreesIfDone s y y') :
  Reaches scope (depth + 1) x' y'
  where
  advances := hadvances
  steady := hsteady
  reaches := by
    intro s r' hr' _ hreliable hclear
    obtain rfl := hr'.unique (hr.of_agrees hy hdone)
    obtain ⟨hresult, hreliable'⟩ :=
      h.reaches hr hdone hreliable (hclear.mono (Nat.le_succ depth))
    rw [hx s (by rw [hresult]; apply hdone)]
    exact ⟨hresult, hreliable'⟩

end Reaches

/-- Composition respects reaching what plain resolutions give. -/
def reaching (scope : Scope) (depth : Nat) : Correspondence Unit where
  rel x y := Reaches scope depth x (y ())
  rel_pure a := .same (passive_pure a)
  rel_ofNumeral x := .same (passive_ofNumeral x)
  rel_warn message := .same (passive_warn message)
  rel_bind hx hf := hx.bind hf

section Step

variable {scope : Scope} {depth : Nat}

theorem eventually_plainStructWithin {name : String} {r : Except ResolveError (Option TypeDesc)}
    (hr : Yields (plainStructWithin scope depth name) r) (hdone : r ≠ .error .tooDeep) :
  Eventually (fun depth => plainStructWithin scope depth name) r
  := by
  use depth
  intro depth' hle
  apply hr.of_agrees (agrees_plainStructWithin scope hle name) hdone

/-- What the plain resolution of types gives within a depth, the resolution with a memo gives. -/
def ReachesTypes (scope : Scope) (depth : Nat) : Prop :=
  ∀ declared, Reaches scope depth (resolveWithin scope depth declared)
    (plainWithin scope depth declared)

theorem reaches_resolveBody (h : ReachesTypes scope depth) (body : Text) :
  Reaches scope depth (resolveBody scope (resolveWithin scope depth) body)
    (resolveBody scope (plainWithin scope depth) body)
  := by
  change (reaching scope depth).rel _ fun _ => resolveBody scope (plainWithin scope depth) body
  apply (reaching scope depth).rel_resolveBody
  intro type _
  apply h

/-- The least depth within which the plain resolution of a struct is done.  The body is resolved
within a smaller depth, for which the struct itself is too deep. -/
theorem reaches_resolveStructWith_least (h : ReachesTypes scope depth) {name : String}
    (hleast : Yields (plainStructWithin scope depth name) (.error .tooDeep)) :
  Reaches scope (depth + 1) (resolveStructWith scope (resolveWithin scope depth) name)
    (plainStructWithin scope (depth + 1) name)
  where
  advances := advancing_resolveStructWith (advancing_resolveWithin scope depth) scope name
  steady := steady_plainStructWithin scope (depth + 1) name
  reaches := by
    intro s r hr hdone hreliable hclear
    have hcourse := structCourse scope (resolveWithin scope depth) s name
    generalize (resolveStructWith scope (resolveWithin scope depth) name).outcome s = o
      at hcourse ⊢
    have henter : Clear scope depth (s.enter name) :=
      (hclear.mono (Nat.le_succ depth)).enter hleast
    have hstruct {body : Text} (hbody : structBody? scope.source name.toList = some body) :
        Reaches scope depth (do return some (← resolveBody scope (resolveWithin scope depth) body))
          (plainStructWithin scope (depth + 1) name) := by
      rw [plainStructWithin, plainStructWith_body _ hbody]
      apply (reaches_resolveBody h body).bind
      intro type
      apply (reaching scope depth).rel_pure
    cases hcourse with
    | known hget =>
        refine ⟨?_, hreliable.of_entries rfl⟩
        apply (hreliable _ _ hget r (eventually_plainStructWithin hr hdone) hdone).symm
    | absent hget hbody =>
        refine ⟨?_, hreliable.of_entries rfl⟩
        rw [plainStructWithin, plainStructWith_absent _ hbody] at hr
        apply (Yields.pure none).unique hr
    | marked body hget hbody hmark =>
        exfalso
        apply hdone (hr.unique (hclear.inProgress name hmark))
    | resolved body type s' hget hbody hmark hresolve =>
        obtain ⟨hresult, hreliable'⟩ :=
          (hstruct hbody).reaches hr hdone (hreliable.enter name) henter
        rw [outcome_bind_ok hresolve] at hresult hreliable'
        use hresult
        apply hreliable'.put
        intro r' hr' _
        rw [hr'.unique (eventually_plainStructWithin hr hdone)]
        apply hresult.symm
    | stopped body e s' hget hbody hmark hresolve =>
        obtain ⟨hresult, hreliable'⟩ :=
          (hstruct hbody).reaches hr hdone (hreliable.enter name) henter
        rw [outcome_bind_error hresolve] at hresult hreliable'
        exact ⟨hresult, hreliable'.of_entries rfl⟩

/-- The least depth within which the plain resolution of an alias is done.  Its target is resolved
within a smaller depth, for which the alias itself is too deep. -/
theorem reaches_resolveAliasWith_least {declared target : Text}
    (h : Reaches scope depth (resolveWithin scope depth target) (plainWithin scope depth target))
    (hplain : plainWithin scope (depth + 1) declared = plainWithin scope depth target)
    (hleast : Yields (plainWithin scope depth declared) (.error .tooDeep)) :
  Reaches scope (depth + 1)
    (resolveAliasWith (resolveWithin scope depth) (String.ofList (typeName declared)) target)
    (plainWithin scope (depth + 1) declared)
  where
  advances := advancing_resolveAliasWith (advancing_resolveWithin scope depth) _ target
  steady := steady_plainWithin scope (depth + 1) declared
  reaches := by
    intro s r hr hdone hreliable hclear
    have hcourse :=
      aliasCourse (resolveWithin scope depth) s (String.ofList (typeName declared)) target
    generalize (resolveAliasWith (resolveWithin scope depth)
      (String.ofList (typeName declared)) target).outcome s = o at hcourse ⊢
    cases hcourse with
    | marked hmark =>
        exfalso
        apply hdone (hr.unique (hclear.expanding declared hmark))
    | expanded r' s' hmark hresolve =>
        rw [hplain] at hr
        have hclear' := (hclear.mono (Nat.le_succ depth)).expand hleast
        obtain ⟨hresult, hreliable'⟩ := h.reaches hr hdone (hreliable.expand _) hclear'
        rw [hresolve] at hresult hreliable'
        exact ⟨hresult, hreliable'.of_entries rfl⟩

/-- The struct that the header declares under a name, following at most a number of
references. -/
def structWithin (scope : Scope) : Nat → String → Resolution (Option TypeDesc)
  | 0, _ => throw .tooDeep
  | depth + 1, name => resolveStructWith scope (resolveWithin scope depth) name

theorem agrees_structWithin {depth' : Nat} (h : depth ≤ depth') (name : String)
    (s : ResolverState) :
  AgreesIfDone s (structWithin scope depth name) (structWithin scope depth' name)
  := by
  cases depth with
  | zero =>
      intro hdone
      contradiction
  | succ depth =>
      obtain ⟨depth', rfl⟩ : ∃ n, depth' = n + 1 := Nat.exists_eq_succ_of_ne_zero (by omega)
      apply agrees_resolveStructWith (deepens_resolveWithin scope (by omega))

theorem reaches_structWithin_succ (h : ReachesTypes scope depth) {name : String}
    (hstruct : Reaches scope depth (structWithin scope depth name)
      (plainStructWithin scope depth name)) :
  Reaches scope (depth + 1) (structWithin scope (depth + 1) name)
    (plainStructWithin scope (depth + 1) name)
  := by
  obtain ⟨r, hr⟩ := hstruct.steady
  -- either the plain resolution needs the whole depth, or a smaller one is enough for it
  by_cases hdone : r = .error .tooDeep
  · rw [hdone] at hr
    apply reaches_resolveStructWith_least h hr
  · apply hstruct.of_done _ (steady_plainStructWithin scope (depth + 1) name) hr hdone
      (agrees_structWithin (Nat.le_succ depth) name)
      (agrees_plainStructWithin scope (Nat.le_succ depth) name)
    apply advancing_resolveStructWith (advancing_resolveWithin scope depth)

theorem ReachesTypes.succ (h : ReachesTypes scope depth)
    (hstruct : ∀ name, Reaches scope (depth + 1) (structWithin scope (depth + 1) name)
      (plainStructWithin scope (depth + 1) name)) :
  ReachesTypes scope (depth + 1)
  := by
  intro declared
  rcases hname : CatalogType.ofName? (typeName declared) with _ | known
  · rcases halias : scope.aliasOf? declared with _ | target
    · rw [resolveWithin, resolveStep_struct _ hname halias, plainWithin,
        plainStep_struct _ hname halias]
      apply (hstruct _).bind
      intro found
      cases found with
      | none => apply (reaching scope (depth + 1)).rel_giveUp
      | some type => apply (reaching scope (depth + 1)).rel_pure
    · obtain ⟨r, hr⟩ := steady_plainWithin scope depth declared
      by_cases hdone : r = .error .tooDeep
      · rw [hdone] at hr
        rw [resolveWithin, resolveStep_alias _ hname halias]
        apply reaches_resolveAliasWith_least (h target) _ hr
        rw [plainWithin, plainStep_alias _ hname halias]
      · apply (h declared).of_done (advancing_resolveWithin scope (depth + 1) declared)
          (steady_plainWithin scope (depth + 1) declared) hr hdone
        · intro s
          apply deepens_resolveWithin scope (Nat.le_succ depth)
        · intro s
          apply deepens_plainWithin scope (Nat.le_succ depth)
  · rw [resolveWithin, resolveStep_catalog _ hname, plainWithin, plainStep_catalog _ hname]
    change (reaching scope (depth + 1)).rel _ fun _ =>
      resolveCatalog scope (plainWithin scope depth) known
    apply (reaching scope (depth + 1)).rel_resolveCatalog
    intro item _ _
    apply (h item).mono

end Step

/-- What the plain resolution of types and structs gives within a depth, the resolution with a
memo gives. -/
theorem reaches_within (scope : Scope) (depth : Nat) :
  ReachesTypes scope depth ∧
  ∀ name, Reaches scope depth (structWithin scope depth name) (plainStructWithin scope depth name)
  := by
  induction depth with
  | zero =>
      constructor
      · intro declared
        apply Reaches.same (passive_throw .tooDeep)
      · intro name
        apply Reaches.same (passive_throw .tooDeep)
  | succ depth ih =>
      obtain ⟨h, hstruct⟩ := ih
      have hstruct' name := reaches_structWithin_succ h (hstruct name)
      exact ⟨h.succ hstruct', hstruct'⟩

end ContractInterface.Header
