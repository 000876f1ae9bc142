import ContractInterface.Proofs.Resolution.Plain

/-!
# Resolutions that cut nothing

A resolution that cuts no reference gives what the plain resolution gives, as long as all that the
memo holds is what the plain resolution gives too.  The memo stays that way, although its entries
are made while other structs and aliases are marked: a mark only matters to a reference that is
cut.

The plain resolution may need a greater depth than the one that looks structs up in the memo, so
what it gives is said to be given eventually.
-/

namespace ContractInterface.Header

open Resolution

/-! ### Warnings about cut references -/

/-- How the warnings begin that are given when a reference is cut. -/
def cutReports : List String := ["Recursive struct reference", "Recursive type alias"]

/-- A warning that a reference was cut. -/
def ReportsCut (warning : String) : Prop :=
  ∃ report ∈ cutReports, report.toList <+: warning.toList

instance : DecidablePred ReportsCut :=
  fun warning =>
    inferInstanceAs (Decidable (∃ report ∈ cutReports, report.toList <+: warning.toList))

/-- No warning says that a reference was cut. -/
def ResolverState.Quiet (s : ResolverState) : Prop :=
  ∀ warning ∈ s.warnings, ¬ReportsCut warning

instance : DecidablePred ResolverState.Quiet :=
  fun s => inferInstanceAs (Decidable (∀ warning ∈ s.warnings, ¬ReportsCut warning))

theorem reportsCut_append {report : String} (h : report ∈ cutReports) (rest : String) :
  ReportsCut (report ++ rest)
  := by
  use report, h
  rw [String.toList_append]
  apply List.prefix_append

theorem reportsCut_struct (name : String) :
  ReportsCut ("Recursive struct reference: " ++ name ++ " (treated as bytes[0])")
  := by
  have hreport : "Recursive struct reference" ∈ cutReports := by decide
  have hmessage := reportsCut_append hreport (": " ++ name ++ " (treated as bytes[0])")
  rw [← String.append_assoc, ← String.append_assoc] at hmessage
  exact hmessage

theorem reportsCut_alias (name : String) :
  ReportsCut ("Recursive type alias: " ++ name ++ " (treated as bytes[0])")
  := by
  have hreport : "Recursive type alias" ∈ cutReports := by decide
  have hmessage := reportsCut_append hreport (": " ++ name ++ " (treated as bytes[0])")
  rw [← String.append_assoc, ← String.append_assoc] at hmessage
  exact hmessage

namespace ResolverState

variable {s s' : ResolverState}

/-- Warnings stay, so what is quiet in the end was quiet before. -/
theorem Quiet.of_advances (h : s'.Quiet) (hadvances : s.Advances s') :
  s.Quiet
  := by
  intro warning hwarning
  apply h warning (hadvances.warnings.subset hwarning)

theorem not_quiet_append {warning : String} (h : ReportsCut warning)
    (hwarnings : s'.warnings = s.warnings ++ [warning]) :
  ¬s'.Quiet
  := by
  intro hquiet
  apply hquiet warning _ h
  rw [hwarnings]
  apply List.mem_append_right _ List.mem_cons_self

end ResolverState

/-! ### What is given eventually -/

/-- From some depth on, resolutions give a result. -/
def Eventually {α : Type} (y : Nat → Resolution α) (r : Except ResolveError α) : Prop :=
  ∃ least : Nat, ∀ depth ≥ least, Yields (y depth) r

namespace Eventually

variable {α β : Type} {y : Nat → Resolution α} {g : Nat → α → Resolution β}

theorem always {x : Resolution α} {r : Except ResolveError α} (h : Yields x r) :
  Eventually (fun _ => x) r
  := ⟨0, fun _ _ => h⟩

theorem unique {r r' : Except ResolveError α} (h : Eventually y r) (h' : Eventually y r') :
  r = r'
  := by
  obtain ⟨least, hleast⟩ := h
  obtain ⟨least', hleast'⟩ := h'
  apply (hleast _ (Nat.le_max_left least least')).unique (hleast' _ (Nat.le_max_right _ _))

theorem bind_ok {a : α} {r : Except ResolveError β} (h : Eventually y (.ok a))
    (hg : Eventually (fun depth => g depth a) r) :
  Eventually (fun depth => y depth >>= g depth) r
  := by
  obtain ⟨least, hleast⟩ := h
  obtain ⟨least', hleast'⟩ := hg
  use max least least'
  intro depth hdepth
  apply (hleast depth (by omega)).bind_ok
  apply hleast' depth (by omega)

theorem bind_error {e : ResolveError} (h : Eventually y (.error e)) :
  Eventually (fun depth => y depth >>= g depth) (.error e)
  := by
  obtain ⟨least, hleast⟩ := h
  use least
  intro depth hdepth
  apply (hleast depth hdepth).bind_error

/-- One more step does not change what is given eventually. -/
theorem of_succ {r : Except ResolveError α} (h : Eventually (fun depth => y (depth + 1)) r) :
  Eventually y r
  := by
  obtain ⟨least, hleast⟩ := h
  use least + 1
  intro depth hdepth
  obtain ⟨depth, rfl⟩ : ∃ n, depth = n + 1 := Nat.exists_eq_succ_of_ne_zero (by omega)
  apply hleast depth (by omega)

end Eventually

/-! ### Faithful memos -/

/-- All that the memo holds meets a condition. -/
def ResolverState.Each (P : String → TypeDesc → Prop) (s : ResolverState) : Prop :=
  ∀ (name : String) (type : TypeDesc), s.memo.entries.get? name = some type → P name type

namespace ResolverState.Each

variable {P : String → TypeDesc → Prop} {s s' : ResolverState}

theorem start : ResolverState.start.Each P
  := by
  intro name type h
  contradiction

theorem of_entries (h : s.Each P) (hentries : s'.memo.entries = s.memo.entries) :
  s'.Each P
  := by
  intro name type hget
  rw [hentries] at hget
  apply h name type hget

theorem put {name : String} {type : TypeDesc} (h : s.Each P) (htype : P name type) :
  Each P { s with memo := s.memo.put name type }
  := by
  intro other value hget
  change (s.memo.entries.insert name type).get? other = some value at hget
  by_cases hother : other = name
  · rw [hother, Assignments.get?_insert_self] at hget
    obtain rfl := Option.some.inj hget
    rw [hother]
    apply htype
  · rw [Assignments.get?_insert_of_ne _ _ hother] at hget
    apply h other value hget

/-- Marks do not change what the memo holds. -/
theorem enter (h : s.Each P) (name : String) :
  (s.enter name).Each P
  := h.of_entries rfl

theorem expand (h : s.Each P) (name : String) :
  Each P { s with expanding := name :: s.expanding }
  := h.of_entries rfl

end ResolverState.Each

/-- All that the memo holds is what the plain resolution gives eventually. -/
def Scope.Faithful (scope : Scope) (s : ResolverState) : Prop :=
  s.Each fun name type =>
    Eventually (fun depth => plainStructWithin scope depth name) (.ok (some type))

/-! ### Resolutions that follow the plain ones -/

/-- A resolution that cuts nothing, and is not too deep, gives what plain resolutions give
eventually, and leaves a faithful memo faithful. -/
structure Follows {α : Type} (scope : Scope) (x : Resolution α) (y : Nat → Resolution α) : Prop
    where
  advances : Advancing x
  follows : ∀ {s s' : ResolverState} {r : Except ResolveError α}, x.outcome s = (r, s') →
    scope.Faithful s → s'.Quiet → r ≠ .error .tooDeep → scope.Faithful s' ∧ Eventually y r

namespace Follows

variable {α β : Type} {scope : Scope}

/-- A resolution that does not look at the memo follows itself. -/
theorem same {x : Resolution α} (h : Passive x) :
  Follows scope x fun _ => x
  where
  advances := h.advances
  follows := by
    intro s s' r hs hfaithful _ _
    obtain ⟨r', hyields⟩ := h.steady
    have hr := hyields s
    have hentries := h.entries s
    rw [hs] at hr hentries
    obtain rfl := hr
    exact ⟨hfaithful.of_entries hentries, .always hyields⟩

theorem bind {x : Resolution α} {y : Nat → Resolution α} {f : α → Resolution β}
    {g : Nat → α → Resolution β} (hx : Follows scope x y)
    (hf : ∀ a, Follows scope (f a) fun depth => g depth a) :
  Follows scope (x >>= f) fun depth => y depth >>= g depth
  where
  advances := hx.advances.bind fun a => (hf a).advances
  follows := by
    intro s s' r h hfaithful hquiet hdone
    rcases hs : x.outcome s with ⟨e | a, t⟩
    · rw [outcome_bind_error hs] at h
      obtain ⟨rfl, rfl⟩ := Prod.mk.inj h
      obtain ⟨hfaithful', hy⟩ := hx.follows hs hfaithful hquiet (by simpa using hdone)
      exact ⟨hfaithful', hy.bind_error⟩
    · rw [outcome_bind_ok hs] at h
      have hadvances := (hf a).advances t
      rw [h] at hadvances
      obtain ⟨hfaithful', hy⟩ :=
        hx.follows hs hfaithful (hquiet.of_advances hadvances) (by simp)
      obtain ⟨hfaithful'', hg⟩ := (hf a).follows h hfaithful' hquiet hdone
      exact ⟨hfaithful'', hy.bind_ok hg⟩

/-- One more step does not change what is given eventually. -/
theorem of_succ {x : Resolution α} {y : Nat → Resolution α}
    (h : Follows scope x fun depth => y (depth + 1)) :
  Follows scope x y
  where
  advances := h.advances
  follows := by
    intro s s' r hs hfaithful hquiet hdone
    obtain ⟨hfaithful', hy⟩ := h.follows hs hfaithful hquiet hdone
    exact ⟨hfaithful', hy.of_succ⟩

end Follows

/-- Composition respects following the plain resolutions. -/
def following (scope : Scope) : Correspondence Nat where
  rel := Follows scope
  rel_pure a := .same (passive_pure a)
  rel_ofNumeral x := .same (passive_ofNumeral x)
  rel_warn message := .same (passive_warn message)
  rel_bind hx hf := hx.bind hf

section Step

variable {scope : Scope} {resolve : Text → Resolution TypeDesc}
  (h : ∀ type, Follows scope (resolve type) fun depth => plainWithin scope depth type)

include h

theorem follows_resolveBody (body : Text) :
  Follows scope (resolveBody scope resolve body)
    fun depth => resolveBody scope (plainWithin scope depth) body
  := by
  change (following scope).rel _ _
  apply (following scope).rel_resolveBody
  intro type _
  apply h

theorem follows_resolveStructWith (name : String) :
  Follows scope (resolveStructWith scope resolve name)
    fun depth => plainStructWith scope (plainWithin scope depth) name
  where
  advances := advancing_resolveStructWith (fun type => (h type).advances) scope name
  follows := by
    intro s s' r hs hfaithful hquiet hdone
    have hcourse := structCourse scope resolve s name
    rw [hs] at hcourse
    cases hcourse with
    | known hget =>
        use hfaithful.of_entries rfl
        obtain ⟨least, hleast⟩ := hfaithful name _ hget
        use least
        intro depth hdepth
        apply hleast (depth + 1) (by omega)
    | absent hget hbody =>
        use hfaithful.of_entries rfl
        simp only [plainStructWith_absent _ hbody]
        apply Eventually.always (.pure none)
    | marked body hget hbody hmark =>
        exfalso
        apply ResolverState.not_quiet_append (reportsCut_struct name) rfl hquiet
    | resolved body type t hget hbody hmark hresolve =>
        obtain ⟨hfaithful', hy⟩ :=
          (follows_resolveBody h body).follows hresolve (hfaithful.enter name) hquiet (by simp)
        have hstruct : Eventually
            (fun depth => plainStructWith scope (plainWithin scope depth) name)
            (.ok (some type)) := by
          simp only [plainStructWith_body _ hbody]
          apply hy.bind_ok
          apply Eventually.always (.pure (some type))
        refine ⟨hfaithful'.put ?_, hstruct⟩
        apply Eventually.of_succ hstruct
    | stopped body e t hget hbody hmark hresolve =>
        obtain ⟨hfaithful', hy⟩ :=
          (follows_resolveBody h body).follows hresolve (hfaithful.enter name) hquiet
            (by simpa using hdone)
        use hfaithful'.of_entries rfl
        simp only [plainStructWith_body _ hbody]
        apply hy.bind_error

theorem follows_resolveAliasWith (name : String) (target : Text) :
  Follows scope (resolveAliasWith resolve name target)
    fun depth => plainWithin scope depth target
  where
  advances := advancing_resolveAliasWith (fun type => (h type).advances) name target
  follows := by
    intro s s' r hs hfaithful hquiet hdone
    have hcourse := aliasCourse resolve s name target
    rw [hs] at hcourse
    cases hcourse with
    | marked hmark =>
        exfalso
        apply ResolverState.not_quiet_append (reportsCut_alias name) rfl hquiet
    | expanded r t hmark hresolve =>
        obtain ⟨hfaithful', hy⟩ :=
          (h target).follows hresolve (hfaithful.expand name) hquiet hdone
        exact ⟨hfaithful'.of_entries rfl, hy⟩

theorem follows_resolveStep (declared : Text) :
  Follows scope (resolveStep scope resolve declared)
    fun depth => plainStep scope (plainWithin scope depth) declared
  := by
  rcases hname : CatalogType.ofName? (typeName declared) with _ | known
  · rcases halias : scope.aliasOf? declared with _ | target
    · rw [resolveStep_struct resolve hname halias]
      simp only [plainStep_struct _ hname halias]
      apply (follows_resolveStructWith h _).bind
      intro found
      cases found with
      | none => apply (following scope).rel_giveUp
      | some type => apply (following scope).rel_pure
    · rw [resolveStep_alias resolve hname halias]
      simp only [plainStep_alias _ hname halias]
      apply follows_resolveAliasWith h
  · rw [resolveStep_catalog resolve hname]
    simp only [plainStep_catalog _ hname]
    change (following scope).rel _ _
    apply (following scope).rel_resolveCatalog
    intro item _ _
    apply h

end Step

/-- To whatever depth, a resolution that cuts nothing gives what the plain resolution gives. -/
theorem follows_resolveWithin (scope : Scope) (depth : Nat) (declared : Text) :
  Follows scope (resolveWithin scope depth declared) fun depth => plainWithin scope depth declared
  := by
  induction depth generalizing declared with
  | zero =>
      constructor
      · intro s
        apply ResolverState.Advances.refl
      · intro s s' r h _ _ hdone
        obtain ⟨rfl, rfl⟩ := Prod.mk.inj h
        contradiction
  | succ depth ih => apply (follows_resolveStep ih declared).of_succ

end ContractInterface.Header
