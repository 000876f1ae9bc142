import ContractInterface.Proofs.Resolution.Transparency

/-!
# Interrupted resolutions

A numeral that is too long stops a resolution, however deep below the call it stands.  The names
that were marked on the way are then unmarked one after another, each where it was marked.

To say what was marked at the moment of the stop, the unguarded resolver does without this: it
leaves the state as it was when the numeral was met.  Apart from that it is the resolver, and the
resolver stops in the state of the unguarded one with the marks from before the call.
-/

namespace ContractInterface.Header

open Resolution

/-! ### The unguarded resolver -/

/-- The struct that the header declares under a name, which stays marked if the resolution of its
body stops. -/
def unguardedStructWith (scope : Scope) (resolve : Text → Resolution TypeDesc) (name : String) :
    Resolution (Option TypeDesc) := do
  match ← onMemo (·.get name) with
  | some type => return some type
  | none =>
    match structBody? scope.source name.toList with
    | none => return none
    | some body =>
      if ← onMemo (·.begin? name) then
        let type ← resolveBody scope resolve body
        modify fun s => { s with memo := s.memo.put name type }
        return some type
      else
        return some (← giveUp
          ("Recursive struct reference: " ++ name ++ " (treated as bytes[0])"))

/-- The type that an alias stands for; the alias stays marked if the resolution of its target
stops. -/
def unguardedAliasWith (resolve : Text → Resolution TypeDesc) (name : String) (target : Text) :
    Resolution TypeDesc := do
  if (← get).expanding.contains name then
    giveUp ("Recursive type alias: " ++ name ++ " (treated as bytes[0])")
  else
    modify fun s => { s with expanding := name :: s.expanding }
    let type ← resolve target
    modify fun s => { s with expanding := s.expanding.filter (· != name) }
    return type

/-- One step of the unguarded resolution of a declared type. -/
def unguardedStep (scope : Scope) (resolve : Text → Resolution TypeDesc) (declared : Text) :
    Resolution TypeDesc :=
  match CatalogType.ofName? (typeName declared) with
  | some known => resolveCatalog scope resolve known
  | none =>
    match scope.aliasOf? declared with
    | some target => unguardedAliasWith resolve (String.ofList (typeName declared)) target
    | none => do
      match ← unguardedStructWith scope resolve (String.ofList (typeName declared)) with
      | some type => return type
      | none =>
        giveUp ("Unknown type: " ++ String.ofList (typeName declared) ++ " (treated as bytes[0])")

/-- The unguarded resolution of a declared type, following at most a number of references. -/
def unguardedWithin (scope : Scope) : Nat → Text → Resolution TypeDesc
  | 0, _ => throw .tooDeep
  | depth + 1, declared => unguardedStep scope (unguardedWithin scope depth) declared

/-- The answer of the unguarded resolver to a call. -/
def Call.unguarded (scope : Scope) : Call → Resolution (Option TypeDesc)
  | type declared => do
    return some (← unguardedWithin scope (scope.depth declared.length) declared)
  | struct name => unguardedStructWith scope (unguardedWithin scope (scope.depth 0)) name
  | fields body => do
    return some (← resolveBody scope (unguardedWithin scope (scope.depth body.length)) body)

section Courses

variable (scope : Scope) (resolve : Text → Resolution TypeDesc)

/-- The courses that the unguarded resolution of a struct can take, each with its outcome: it
gives a result at once, as the guarded one does, or it resolves the body. -/
inductive UnguardedCourse (s : ResolverState) (name : String) :
    Except ResolveError (Option TypeDesc) × ResolverState → Prop
  | atOnce (found : Option TypeDesc) (s' : ResolverState)
      (h : ∀ resolve', (resolveStructWith scope resolve' name).outcome s = (.ok found, s')) :
    UnguardedCourse s name (.ok found, s')
  | resolved (body : Text) (type : TypeDesc) (s' : ResolverState)
      (h : s.memo.entries.get? name = none)
      (hbody : structBody? scope.source name.toList = some body)
      (hmark : name ∉ s.memo.inProgress)
      (hresolve : (resolveBody scope resolve body).outcome (s.enter name) = (.ok type, s')) :
    UnguardedCourse s name (.ok (some type), { s' with memo := s'.memo.put name type })
  | stopped (body : Text) (e : ResolveError) (u : ResolverState)
      (h : s.memo.entries.get? name = none)
      (hbody : structBody? scope.source name.toList = some body)
      (hmark : name ∉ s.memo.inProgress)
      (hresolve : (resolveBody scope resolve body).outcome (s.enter name) = (.error e, u)) :
    UnguardedCourse s name (.error e, u)

theorem unguardedCourse (s : ResolverState) (name : String) :
  UnguardedCourse scope resolve s name ((unguardedStructWith scope resolve name).outcome s)
  := by
  rcases hget : s.memo.entries.get? name with _ | type
  · rcases hbody : structBody? scope.source name.toList with _ | body
    · have hfound := fun resolve' => outcome_resolveStructWith_absent scope resolve' hget hbody
      convert UnguardedCourse.atOnce none _ hfound using 1
      simp [unguardedStructWith, outcome_bind, Memo.get, hget, hbody]
    · by_cases hmark : name ∈ s.memo.inProgress
      · have hfound := fun resolve' =>
          outcome_resolveStructWith_marked scope resolve' hget hbody hmark
        convert UnguardedCourse.atOnce (some .placeholder) _ hfound using 1
        simp [unguardedStructWith, outcome_bind, Memo.get, Memo.begin?, hget, hbody, hmark,
          Except.map]
      · rcases hresolve : (resolveBody scope resolve body).outcome (s.enter name)
          with ⟨e | type, u⟩
        · convert UnguardedCourse.stopped body e u hget hbody hmark hresolve using 1
          rw [ResolverState.enter] at hresolve
          simp [unguardedStructWith, outcome_bind, Memo.get, Memo.begin?, hget, hbody, hmark,
            hresolve]
        · convert UnguardedCourse.resolved body type u hget hbody hmark hresolve using 1
          rw [ResolverState.enter] at hresolve
          simp [unguardedStructWith, outcome_bind, Memo.get, Memo.begin?, hget, hbody, hmark,
            hresolve, Except.map]
  · have hfound := fun resolve' => outcome_resolveStructWith_known scope resolve' hget
    convert UnguardedCourse.atOnce (some type) _ hfound using 1
    simp [unguardedStructWith, outcome_bind, Memo.get, hget]

/-- An alias that is not being expanded is marked while its target is resolved, and stays marked
if that stops. -/
theorem outcome_unguardedAliasWith_fresh {s : ResolverState} {name : String} (target : Text)
    (hmark : name ∉ s.expanding) :
  (unguardedAliasWith resolve name target).outcome s =
    match (resolve target).outcome { s with expanding := name :: s.expanding } with
    | (.ok type, s') => (.ok type, { s' with expanding := s'.expanding.filter (· != name) })
    | (.error e, u) => (.error e, u)
  := by
  simp only [unguardedAliasWith, outcome_bind, outcome_get, List.contains_eq_mem, hmark,
    decide_false, Bool.false_eq_true, ↓reduceIte, outcome_modify, outcome_pure]
  rcases (resolve target).outcome { s with expanding := name :: s.expanding } with ⟨e | type, s'⟩
  · rfl
  · rfl

end Courses

/-! ### Marks -/

namespace ResolverState

/-- A state with the marks of another one. -/
def withMarksOf (u s : ResolverState) : ResolverState :=
  { u with memo := { u.memo with inProgress := s.memo.inProgress }, expanding := s.expanding }

/-- A state in which names are marked on top of those of another one.  The structs among them
have not been resolved. -/
structure Encloses (s u : ResolverState) : Prop where
  structs : ∃ names, u.memo.inProgress = names ++ s.memo.inProgress ∧
    ∀ name ∈ names, u.memo.entries.get? name = none
  aliases : ∃ names, u.expanding = names ++ s.expanding

theorem Encloses.refl (s : ResolverState) : s.Encloses s
  where
  structs := ⟨[], rfl, fun _ hname => absurd hname List.not_mem_nil⟩
  aliases := ⟨[], rfl⟩

/-- Only the marks of a state matter to what is marked on top of it. -/
theorem Encloses.of_marks {s s' u : ResolverState} (h : s'.Encloses u)
    (hstructs : s'.memo.inProgress = s.memo.inProgress) (haliases : s'.expanding = s.expanding) :
  s.Encloses u
  := by
  obtain ⟨hs, ha⟩ := h
  rw [hstructs] at hs
  rw [haliases] at ha
  exact ⟨hs, ha⟩

/-- A struct is on top of what is marked when its body is resolved. -/
theorem Encloses.of_enter {s u : ResolverState} {name : String} (h : (s.enter name).Encloses u)
    (hname : u.memo.entries.get? name = none) :
  s.Encloses u
  := by
  obtain ⟨⟨names, hnames, hnone⟩, haliases⟩ := h
  refine ⟨⟨names ++ [name], ?_, ?_⟩, haliases⟩
  · rw [List.append_assoc]
    apply hnames
  · intro other hother
    rcases List.mem_append.mp hother with hother | hother
    · apply hnone other hother
    · rw [List.mem_singleton.mp hother]
      apply hname

/-- An alias is on top of what is marked when its target is resolved. -/
theorem Encloses.of_expand {s u : ResolverState} {name : String}
    (h : Encloses { s with expanding := name :: s.expanding } u) :
  s.Encloses u
  := by
  obtain ⟨hstructs, names, hnames⟩ := h
  refine ⟨hstructs, names ++ [name], ?_⟩
  rw [List.append_assoc]
  apply hnames

end ResolverState

/-! ### Cleaning up -/

/-- A resolution that does what another one does, and takes the marks back when it stops. -/
structure CleansUp {α : Type} (x y : Resolution α) : Prop where
  advancing : Advancing x
  done : ∀ {s s' : ResolverState} {a : α}, y.outcome s = (.ok a, s') → x.outcome s = (.ok a, s')
  stopped : ∀ {s u : ResolverState} {e : ResolveError}, y.outcome s = (.error e, u) →
    x.outcome s = (.error e, u.withMarksOf s) ∧ s.Encloses u

namespace CleansUp

variable {α β : Type}

theorem throw (e : ResolveError) : CleansUp (throw e : Resolution α) (throw e)
  where
  advancing := ResolverState.Advances.refl
  done := by
    rintro s s' a ⟨⟩
  stopped := by
    rintro s u e ⟨⟩
    exact ⟨rfl, .refl s⟩

theorem pure (a : α) : CleansUp (pure a) (pure a)
  where
  advancing := ResolverState.Advances.refl
  done := id
  stopped := by
    rintro s u e ⟨⟩

theorem bind {x y : Resolution α} {f g : α → Resolution β} (hx : CleansUp x y)
    (hf : ∀ a, CleansUp (f a) (g a)) :
  CleansUp (x >>= f) (y >>= g)
  where
  advancing := hx.advancing.bind fun a => (hf a).advancing
  done := by
    intro s s' b h
    obtain ⟨a, t, hy, hg⟩ := outcome_bind_eq_ok_iff.mp h
    rw [outcome_bind_ok (hx.done hy)]
    apply (hf a).done hg
  stopped := by
    intro s u e h
    rcases hy : y.outcome s with ⟨e' | a, t⟩
    · rw [outcome_bind_error hy] at h
      obtain ⟨rfl, rfl⟩ := Prod.mk.inj h |>.imp_left Except.error.inj
      obtain ⟨hstop, hencloses⟩ := hx.stopped hy
      exact ⟨outcome_bind_error hstop f, hencloses⟩
    · -- the first part has put its own marks back
      rw [outcome_bind_ok hy] at h
      have hdone := hx.done hy
      obtain ⟨hstop, hencloses⟩ := (hf a).stopped h
      have hadvances := hx.advancing s
      rw [hdone] at hadvances
      constructor
      · rw [outcome_bind_ok hdone, hstop, ResolverState.withMarksOf, hadvances.inProgress,
          hadvances.expanding]
        rfl
      · apply hencloses.of_marks hadvances.inProgress hadvances.expanding

/-- In either case the resolution ends as the other one does, with the marks from before. -/
theorem outcome {x y : Resolution α} (h : CleansUp x y) (s : ResolverState) :
  x.outcome s = ((y.outcome s).1, (y.outcome s).2.withMarksOf s)
  := by
  rcases hy : y.outcome s with ⟨e | a, u⟩
  · apply (h.stopped hy).1
  · have hadvances := h.advancing s
    rw [h.done hy] at hadvances ⊢
    rw [ResolverState.withMarksOf, ← hadvances.inProgress, ← hadvances.expanding]

theorem encloses {x y : Resolution α} (h : CleansUp x y) (s : ResolverState) :
  s.Encloses (y.outcome s).2
  := by
  rcases hy : y.outcome s with ⟨e | a, u⟩
  · apply (h.stopped hy).2
  · have hadvances := h.advancing s
    rw [h.done hy] at hadvances
    apply (ResolverState.Encloses.refl u).of_marks hadvances.inProgress hadvances.expanding

end CleansUp

/-- Composition respects cleaning up. -/
def cleaning : Correspondence Unit where
  rel x y := CleansUp x (y ())
  rel_pure a := .pure a
  rel_ofNumeral x := by
    cases x with
    | error e => apply CleansUp.throw
    | ok a => apply CleansUp.pure
  rel_warn message :=
    { advancing := advancing.rel_warn message
      done := id
      stopped := by
        rintro s u e ⟨⟩ }
  rel_bind hx hf := hx.bind hf

section Step

variable {resolve resolve' : Text → Resolution TypeDesc}
  (h : ∀ type, CleansUp (resolve type) (resolve' type))

include h

theorem cleansUp_resolveBody (scope : Scope) (body : Text) :
  CleansUp (resolveBody scope resolve body) (resolveBody scope resolve' body)
  := by
  change cleaning.rel _ fun _ => resolveBody scope resolve' body
  apply cleaning.rel_resolveBody
  intro type _
  apply h

theorem cleansUp_structWith (scope : Scope) (name : String) :
  CleansUp (resolveStructWith scope resolve name) (unguardedStructWith scope resolve' name)
  := by
  have hbodies body := cleansUp_resolveBody h scope body
  refine ⟨advancing_resolveStructWith (fun type => (h type).advancing) scope name, ?_, ?_⟩
  · intro s s' a hdone
    have hcourse := unguardedCourse scope resolve' s name
    rw [hdone] at hcourse
    cases hcourse with
    | atOnce found _ hfound => apply hfound
    | resolved body type s' hget hbody hmark hresolve =>
        apply outcome_resolveStructWith_ok scope resolve hget hbody hmark
        apply (hbodies body).done hresolve
  · intro s u e hstop
    have hcourse := unguardedCourse scope resolve' s name
    rw [hstop] at hcourse
    cases hcourse with
    | stopped body _ _ hget hbody hmark hresolve =>
        obtain ⟨hguarded, hencloses⟩ := (hbodies body).stopped hresolve
        -- nobody else puts a struct into the memo while it is marked
        have hadvances := (hbodies body).advancing (s.enter name)
        rw [hguarded] at hadvances
        have hunknown := hadvances.marked List.mem_cons_self
        constructor
        · rw [outcome_resolveStructWith_error scope resolve hget hbody hmark hguarded]
          simp only [ResolverState.withMarksOf, Memo.abandon, ResolverState.enter,
            ResolverState.Advances.filter_marked hmark]
        · apply hencloses.of_enter
          apply hunknown.trans hget

theorem cleansUp_aliasWith (name : String) (target : Text) :
  CleansUp (resolveAliasWith resolve name target) (unguardedAliasWith resolve' name target)
  := by
  refine ⟨advancing_resolveAliasWith (fun type => (h type).advancing) name target, ?_, ?_⟩
  · intro s s' a hdone
    by_cases hmark : name ∈ s.expanding
    · rw [outcome_resolveAliasWith_marked resolve target hmark, ← hdone]
      simp [unguardedAliasWith, outcome_bind, hmark]
    · rw [outcome_unguardedAliasWith_fresh resolve' target hmark] at hdone
      rcases hresolve : (resolve' target).outcome { s with expanding := name :: s.expanding }
        with ⟨e | type, u⟩
      · simp [hresolve] at hdone
      · rw [outcome_resolveAliasWith_fresh resolve target hmark, (h target).done hresolve,
          ← hdone, hresolve]
  · intro s u e hstop
    by_cases hmark : name ∈ s.expanding
    · simp [unguardedAliasWith, outcome_bind, hmark] at hstop
    · rw [outcome_unguardedAliasWith_fresh resolve' target hmark] at hstop
      rcases hresolve : (resolve' target).outcome { s with expanding := name :: s.expanding }
        with ⟨e' | type, u'⟩
      · rw [hresolve] at hstop
        obtain ⟨rfl, rfl⟩ := Prod.mk.inj hstop |>.imp_left Except.error.inj
        obtain ⟨hguarded, hencloses⟩ := (h target).stopped hresolve
        constructor
        · rw [outcome_resolveAliasWith_fresh resolve target hmark, hguarded]
          simp only [ResolverState.withMarksOf, ResolverState.Advances.filter_marked hmark]
        · apply hencloses.of_expand
      · simp [hresolve] at hstop

theorem cleansUp_step (scope : Scope) (declared : Text) :
  CleansUp (resolveStep scope resolve declared) (unguardedStep scope resolve' declared)
  := by
  unfold unguardedStep
  rcases hname : CatalogType.ofName? (typeName declared) with _ | known
  · rcases halias : scope.aliasOf? declared with _ | target
    · rw [resolveStep_struct resolve hname halias]
      apply (cleansUp_structWith h scope _).bind
      intro found
      cases found with
      | none => apply cleaning.rel_giveUp
      | some type => apply CleansUp.pure
    · rw [resolveStep_alias resolve hname halias]
      apply cleansUp_aliasWith h
  · rw [resolveStep_catalog resolve hname]
    change cleaning.rel _ fun _ => resolveCatalog scope resolve' known
    apply cleaning.rel_resolveCatalog
    intro item _ _
    apply h

end Step

/-- The resolution of a declared type takes its marks back, to whatever depth it goes. -/
theorem cleansUp_within (scope : Scope) (depth : Nat) (declared : Text) :
  CleansUp (resolveWithin scope depth declared) (unguardedWithin scope depth declared)
  := by
  induction depth generalizing declared with
  | zero => apply CleansUp.throw
  | succ depth ih => apply cleansUp_step ih

theorem Call.cleansUp_answer (scope : Scope) (call : Call) :
  CleansUp (call.answer scope) (call.unguarded scope)
  := by
  cases call with
  | type declared => apply (cleansUp_within scope _ declared).bind fun _ => .pure _
  | struct name => apply cleansUp_structWith (cleansUp_within scope _)
  | fields body =>
      apply (cleansUp_resolveBody (cleansUp_within scope _) scope body).bind fun _ => .pure _

/-- A resolver is as ready after a call as before it, whether the call is answered or stopped by a
numeral: it ends as the unguarded resolver does, with the marks from before the call, so that
nothing is marked between calls.  What has been resolved stays.  No struct that the call was
still resolving when it ended is in the memo, nor is one that was marked before, unless it was
there already. -/
theorem Call.answer_restores (scope : Scope) (call : Call) (s : ResolverState) :
  let left := ((call.answer scope).outcome s).2
  let atEnd := ((call.unguarded scope).outcome s).2
  (left.memo.inProgress = s.memo.inProgress ∧ left.expanding = s.expanding) ∧
  (∀ name type, s.memo.entries.get? name = some type →
    left.memo.entries.get? name = some type) ∧
  (∀ name ∈ s.memo.inProgress, left.memo.entries.get? name = s.memo.entries.get? name) ∧
  (call.answer scope).outcome s =
    (((call.unguarded scope).outcome s).1, atEnd.withMarksOf s) ∧
  (∃ structs, atEnd.memo.inProgress = structs ++ s.memo.inProgress ∧
    ∀ name ∈ structs, left.memo.entries.get? name = none) ∧
  (∃ aliases, atEnd.expanding = aliases ++ s.expanding) ∧
  ∀ calls, (scope.answers calls .start).2.memo.inProgress = [] ∧
    (scope.answers calls .start).2.expanding = []
  := by
  intro left atEnd
  have hcleans := call.cleansUp_answer scope
  have hadvances : s.Advances left := hcleans.advancing s
  have houtcome := hcleans.outcome s
  obtain ⟨⟨structs, hstructs, hnone⟩, haliases⟩ := hcleans.encloses s
  refine ⟨⟨hadvances.inProgress, hadvances.expanding⟩, fun name type => hadvances.entries,
    fun name => hadvances.marked, houtcome, ⟨structs, hstructs, ?_⟩, haliases, ?_⟩
  · have hleft : left = atEnd.withMarksOf s := congrArg Prod.snd houtcome
    rw [hleft]
    apply hnone
  · intro calls
    have hstart := scope.advances_answers calls .start
    exact ⟨hstart.inProgress, hstart.expanding⟩

end ContractInterface.Header
