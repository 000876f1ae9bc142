import ContractInterface.Header.Compile
import ContractInterface.Proofs.Resolution.Reliable
import ContractInterface.Proofs.Resolution.Termination
import Mathlib.Data.List.Forall2

/-!
# Compiling entries one after another

Between the entries of a header nothing is marked, and the memo is reliable (`Idle`).  What the
compilation of an entry gives may depend on the memo; but where the plain resolutions of its two
structs are ever done, it gives what they give (`Settles`).  They are done if the compilation cuts
no reference.

A run over all entries is described by what it does for each of them.
-/

namespace ContractInterface.Header

open Resolution

/-! ### One entry -/

/-- A side of an entry, given the way in which structs are resolved. -/
def sideWith (struct : String → Resolution (Option TypeDesc)) (name : String) :
    Resolution (TypeDesc × Nat) := do
  let type := (← struct name).getD (.nodata none)
  let _ ← ofNumeral (reportPadding type)
  return (describeSide type, type.size)

/-- A registered entry, given the way in which structs are resolved. -/
def entryWith (struct : String → Resolution (Option TypeDesc)) (r : Registration) :
    Resolution (Entry TypeDesc) := do
  let (input, inputSize) ← sideWith struct (r.name ++ "_input")
  let (output, outputSize) ← sideWith struct (r.name ++ "_output")
  ofNumeral (Numeral.requireWritable inputSize)
  ofNumeral (Numeral.requireWritable outputSize)
  return { kind := r.kind, name := r.name, inputType := r.inputType,
           input, output, inputSize, outputSize }

theorem compileEntry_eq (scope : Scope) (r : Registration) :
  compileEntry scope r = entryWith scope.resolveStruct r
  := rfl

section Correspond

variable {ι : Type} (C : Correspondence ι) {struct : String → Resolution (Option TypeDesc)}
  {struct' : ι → String → Resolution (Option TypeDesc)}
  (h : ∀ name, C.rel (struct name) fun i => struct' i name)

include h

theorem Correspondence.rel_sideWith (name : String) :
  C.rel (sideWith struct name) fun i => sideWith (struct' i) name
  := by
  apply C.rel_bind (h name)
  intro found
  apply C.rel_bind (C.rel_ofNumeral _)
  intro _
  apply C.rel_pure

/-- The compilations of an entry correspond if the resolutions of its structs do. -/
theorem Correspondence.rel_entryWith (r : Registration) :
  C.rel (entryWith struct r) fun i => entryWith (struct' i) r
  := by
  apply C.rel_bind (C.rel_sideWith h _)
  intro input
  apply C.rel_bind (C.rel_sideWith h _)
  intro output
  apply C.rel_bind (C.rel_ofNumeral _)
  intro _
  apply C.rel_bind (C.rel_ofNumeral _)
  intro _
  apply C.rel_pure

end Correspond

section Parts

variable {scope : Scope} {s s' : ResolverState}

/-- The parts of a side that has been resolved. -/
theorem exists_of_resolveSide {name : String} {side : TypeDesc × Nat}
    (h : (resolveSide scope name).outcome s = (.ok side, s')) :
  ∃ found : Option TypeDesc, (scope.resolveStruct name).outcome s = (.ok found, s') ∧
    side = (describeSide (found.getD (.nodata none)), (found.getD (.nodata none)).size)
  := by
  obtain ⟨found, t, hfound, h⟩ := outcome_bind_eq_ok_iff.mp h
  obtain ⟨_, _, hpadding, h⟩ := outcome_bind_eq_ok_iff.mp h
  obtain ⟨-, rfl⟩ := outcome_ofNumeral_eq_ok_iff.mp hpadding
  obtain ⟨hside, rfl⟩ := Prod.mk.inj h
  exact ⟨found, hfound, (Except.ok.inj hside).symm⟩

/-- The parts of an entry that has been compiled. -/
theorem exists_of_compileEntry {r : Registration} {e : Entry TypeDesc}
    (h : (compileEntry scope r).outcome s = (.ok e, s')) :
  ∃ (input output : TypeDesc × Nat) (t : ResolverState),
    (resolveSide scope (r.name ++ "_input")).outcome s = (.ok input, t) ∧
    (resolveSide scope (r.name ++ "_output")).outcome t = (.ok output, s') ∧
    e = { kind := r.kind, name := r.name, inputType := r.inputType, input := input.1,
          output := output.1, inputSize := input.2, outputSize := output.2 }
  := by
  obtain ⟨input, t, hinput, h⟩ := outcome_bind_eq_ok_iff.mp h
  obtain ⟨output, t', houtput, h⟩ := outcome_bind_eq_ok_iff.mp h
  obtain ⟨_, _, hsize, h⟩ := outcome_bind_eq_ok_iff.mp h
  obtain ⟨-, rfl⟩ := outcome_ofNumeral_eq_ok_iff.mp hsize
  obtain ⟨_, _, hsize', h⟩ := outcome_bind_eq_ok_iff.mp h
  obtain ⟨-, rfl⟩ := outcome_ofNumeral_eq_ok_iff.mp hsize'
  obtain ⟨hentry, rfl⟩ := Prod.mk.inj h
  exact ⟨input, output, t, hinput, houtput, (Except.ok.inj hentry).symm⟩

end Parts

/-! ### Between entries -/

/-- Nothing is marked, and the memo is reliable. -/
structure Idle (scope : Scope) (s : ResolverState) : Prop where
  inProgress : s.memo.inProgress = []
  expanding : s.expanding = []
  reliable : scope.Reliable s

section Idle

variable {scope : Scope} {s s' : ResolverState}

theorem Idle.start : Idle scope .start
  := ⟨rfl, rfl, .start⟩

theorem Idle.allClear (h : Idle scope s) :
  AllClear scope s
  := by
  intro depth
  constructor
  · intro name hname
    rw [h.inProgress] at hname
    contradiction
  · intro declared hdeclared
    rw [h.expanding] at hdeclared
    contradiction

/-- What preserves reliable memos leaves the resolver idle. -/
theorem Idle.of_outcome {α : Type} {x : Resolution α} {result : Except ResolveError α}
    (h : Idle scope s) (hx : Preserves scope x) (hs : x.outcome s = (result, s'))
    (hdone : result ≠ .error .tooDeep) :
  Idle scope s'
  := by
  have hadvances := hx.advances s
  have hreliable := hx.reliable h.reliable h.allClear
  rw [hs] at hadvances hreliable
  exact ⟨hadvances.inProgress.trans h.inProgress, hadvances.expanding.trans h.expanding,
    hreliable hdone⟩

theorem preserves_compileEntry (scope : Scope) (r : Registration) :
  Preserves scope (compileEntry scope r)
  := by
  change (preserving scope).rel (entryWith scope.resolveStruct r) fun _ =>
    entryWith scope.resolveStruct r
  apply (preserving scope).rel_entryWith
  apply preserves_resolveStruct

theorem done_compileEntry (scope : Scope) (s : ResolverState) (r : Registration) :
  ((compileEntry scope r).outcome s).1 ≠ .error .tooDeep
  := by
  have hends : (ending scope (scope.unmarked s)).rel (entryWith scope.resolveStruct r) fun _ =>
      entryWith scope.resolveStruct r := by
    apply (ending scope (scope.unmarked s)).rel_entryWith
    intro name
    exact ⟨(preserves_resolveStruct scope name).advances,
      fun s' _ => scope.done_resolveStruct s' name⟩
  apply hends.done s (Nat.le_refl _)

end Idle

/-! ### What entries settle to -/

/-- What the compilation of an entry from plain resolutions gives eventually. -/
structure Settles (scope : Scope) (r : Registration)
    (result : Except ResolveError (Entry TypeDesc)) : Prop where
  eventually : Eventually (fun depth => entryWith (plainStructWithin scope depth) r) result
  done : result ≠ .error .tooDeep

section Settles

variable {scope : Scope} {r : Registration} {result : Except ResolveError (Entry TypeDesc)}
  {s s' : ResolverState}

theorem Settles.unique {result' : Except ResolveError (Entry TypeDesc)}
    (h : Settles scope r result) (h' : Settles scope r result') :
  result = result'
  := h.eventually.unique h'.eventually

/-- An entry is compiled to what it settles to, whatever has been compiled before. -/
theorem Settles.outcome_compileEntry (h : Settles scope r result) (hs : Idle scope s) :
  ((compileEntry scope r).outcome s).1 = result
  := by
  obtain ⟨⟨least, hleast⟩, hdone⟩ := h
  have hreaches : (reaching scope least).rel (entryWith (structWithin scope least) r)
      fun _ => entryWith (plainStructWithin scope least) r := by
    apply (reaching scope least).rel_entryWith
    apply (reaches_within scope least).2
  have hagrees : agreement.rel (entryWith (structWithin scope least) r)
      fun _ => entryWith scope.resolveStruct r := by
    apply agreement.rel_entryWith
    intro name s hdone
    change (structWithin scope (scope.depth 0 + 1) name).outcome s = _
    apply outcome_eq_of_done (x := fun depth => structWithin scope depth name)
      (fun hle => agrees_structWithin hle name) hdone
    apply scope.done_resolveStruct
  obtain ⟨hresult, -⟩ := hreaches.reaches (hleast least (Nat.le_refl least)) hdone hs.reliable
    (hs.allClear least)
  rw [compileEntry_eq, hagrees s (by rw [hresult]; apply hdone), hresult]

/-- An entry settles to what its compilation gives if nothing was cut, before or then. -/
theorem settles_of_quiet (h : (compileEntry scope r).outcome s = (result, s'))
    (hs : s.Quiet → scope.Faithful s) (hquiet : s'.Quiet) :
  scope.Faithful s' ∧ Settles scope r result
  := by
  have hfollows : (following scope).rel (entryWith scope.resolveStruct r)
      fun depth => entryWith (plainStructWithin scope depth) r := by
    apply (following scope).rel_entryWith
    intro name
    apply Follows.of_succ
    apply follows_resolveStructWith (follows_resolveWithin scope (scope.depth 0))
  have hadvances := hfollows.advances s
  have hdone := done_compileEntry scope s r
  rw [← compileEntry_eq, h] at hadvances
  rw [h] at hdone
  have hfaithful := hs (hquiet.of_advances hadvances)
  obtain ⟨hfaithful', heventually⟩ := hfollows.follows h hfaithful hquiet hdone
  exact ⟨hfaithful', heventually, hdone⟩

end Settles

/-! ### Runs over all entries -/

section Run

variable {scope : Scope} {rs : List Registration} {es : List (Entry TypeDesc)}
  {s s' : ResolverState}

theorem advancing_compileEntries (scope : Scope) (rs : List Registration) :
  Advancing (compileEntries scope rs)
  := by
  induction rs with
  | nil => apply advancing.rel_pure
  | cons r rs ih =>
      apply (preserves_compileEntry scope r).advances.bind
      intro e
      apply ih.bind
      intro es
      apply advancing.rel_pure

theorem exists_of_mem_left {α β : Type} {R : α → β → Prop} {as : List α} {bs : List β} {a : α}
    (h : List.Forall₂ R as bs) (ha : a ∈ as) :
  ∃ b ∈ bs, R a b
  := by
  induction h with
  | nil => contradiction
  | @cons a' b as bs hab _ ih =>
      rcases List.mem_cons.mp ha with rfl | ha
      · exact ⟨b, List.mem_cons_self, hab⟩
      · obtain ⟨b', hb', hr⟩ := ih ha
        exact ⟨b', List.mem_cons_of_mem b hb', hr⟩

/-- What each entry leaves behind, if later entries keep it, is there in the end. -/
theorem forall₂_of_compileEntries {P : ResolverState → Prop}
    {R : Registration → Entry TypeDesc → ResolverState → Prop}
    (hstep : ∀ {r e s s'}, P s → (compileEntry scope r).outcome s = (.ok e, s') → P s' ∧ R r e s')
    (hkeep : ∀ {r e s s'}, R r e s → s.Advances s' → R r e s')
    (h : (compileEntries scope rs).outcome s = (.ok es, s')) (hs : P s) :
  P s' ∧ List.Forall₂ (fun r e => R r e s') rs es
  := by
  induction rs generalizing s es with
  | nil =>
      obtain ⟨hes, rfl⟩ := Prod.mk.inj h
      obtain rfl := Except.ok.inj hes
      exact ⟨hs, .nil⟩
  | cons r rs ih =>
      obtain ⟨e, t, he, h⟩ := outcome_bind_eq_ok_iff.mp h
      obtain ⟨rest, t', hrest, h⟩ := outcome_bind_eq_ok_iff.mp h
      obtain ⟨hes, rfl⟩ := Prod.mk.inj h
      obtain rfl := Except.ok.inj hes
      obtain ⟨ht, hr⟩ := hstep hs he
      have hadvances := advancing_compileEntries scope rs t
      rw [hrest] at hadvances
      obtain ⟨ht', hrs⟩ := ih hrest ht
      exact ⟨ht', .cons (hkeep hr hadvances) hrs⟩

/-- A run that stops has stopped at some entry. -/
theorem exists_of_compileEntries_error {P : ResolverState → Prop} {e : ResolveError}
    (hstep : ∀ {r e s s'}, P s → (compileEntry scope r).outcome s = (.ok e, s') → P s')
    (h : (compileEntries scope rs).outcome s = (.error e, s')) (hs : P s) :
  ∃ r ∈ rs, ∃ t, P t ∧ (compileEntry scope r).outcome t = (.error e, s')
  := by
  induction rs generalizing s with
  | nil =>
      obtain ⟨⟨⟩, -⟩ := Prod.mk.inj h
  | cons r rs ih =>
      rw [compileEntries] at h
      rcases he : (compileEntry scope r).outcome s with ⟨e' | entry, t⟩
      · rw [outcome_bind_error he] at h
        obtain ⟨⟨⟩, rfl⟩ := Prod.mk.inj h
        exact ⟨r, List.mem_cons_self, s, hs, he⟩
      · rw [outcome_bind_ok he] at h
        rcases hrest : (compileEntries scope rs).outcome t with ⟨e' | rest, t'⟩
        · rw [outcome_bind_error hrest] at h
          obtain ⟨r', hr', hstop⟩ := ih (hrest.trans h) (hstep hs he)
          exact ⟨r', List.mem_cons_of_mem r hr', hstop⟩
        · rw [outcome_bind_ok hrest] at h
          obtain ⟨⟨⟩, -⟩ := Prod.mk.inj h

/-- A run over entries that settle gives what they settle to. -/
theorem outcome_compileEntries_of_settles
    (h : List.Forall₂ (fun r e => Settles scope r (.ok e)) rs es) (hs : Idle scope s) :
  ((compileEntries scope rs).outcome s).1 = .ok es
  := by
  induction h generalizing s with
  | nil => rfl
  | @cons r e rs es hr _ ih =>
      have hresult := hr.outcome_compileEntry hs
      rcases he : (compileEntry scope r).outcome s with ⟨result, t⟩
      rw [he] at hresult
      obtain rfl : result = .ok e := hresult
      have hrest := ih (hs.of_outcome (preserves_compileEntry scope r) he (by simp))
      rcases hes : (compileEntries scope rs).outcome t with ⟨result, t'⟩
      rw [hes] at hrest
      obtain rfl : result = .ok es := hrest
      rw [compileEntries, outcome_bind_ok he, outcome_bind_ok hes]
      rfl

/-- If a run cuts nothing, then every entry settles to what it is compiled to. -/
theorem settles_of_quiet_run (h : (compileEntries scope rs).outcome s = (.ok es, s'))
    (hs : s.Quiet → scope.Faithful s) (hquiet : s'.Quiet) :
  scope.Faithful s' ∧ List.Forall₂ (fun r e => Settles scope r (.ok e)) rs es
  := by
  -- whether the run is quiet is known only in the end, so all is said on that condition
  obtain ⟨hfaithful, hsettles⟩ := forall₂_of_compileEntries
    (P := fun s => s.Quiet → scope.Faithful s)
    (R := fun r e s => s.Quiet → Settles scope r (.ok e))
    (fun hs he => ⟨fun hquiet => (settles_of_quiet he hs hquiet).1,
      fun hquiet => (settles_of_quiet he hs hquiet).2⟩)
    (fun hr hadvances hquiet => hr (hquiet.of_advances hadvances))
    h hs
  exact ⟨hfaithful hquiet, hsettles.imp fun _ _ hr => hr hquiet⟩

/-- If a run stops without a cut, then some entry settles to that. -/
theorem exists_settles_of_quiet_error {e : ResolveError}
    (h : (compileEntries scope rs).outcome s = (.error e, s'))
    (hs : s.Quiet → scope.Faithful s) (hquiet : s'.Quiet) :
  ∃ r ∈ rs, Settles scope r (.error e)
  := by
  obtain ⟨r, hr, t, ht, hstop⟩ := exists_of_compileEntries_error
    (P := fun s => s.Quiet → scope.Faithful s)
    (fun hs he hquiet => (settles_of_quiet he hs hquiet).1) h hs
  exact ⟨r, hr, (settles_of_quiet hstop ht hquiet).2⟩

end Run

end ContractInterface.Header
