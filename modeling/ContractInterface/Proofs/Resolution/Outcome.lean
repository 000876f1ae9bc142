import ContractInterface.Header.Resolver

/-!
# Outcomes of resolutions

The outcome of a resolution from a state is its result, or the reason why it stopped, together
with the state that it leaves.  The outcome of a composite resolution is that of its parts, and
the two operations that mark names while others are resolved, `resolveStructWith` and
`resolveAliasWith`, have one equation for each course that they can take.
-/

namespace ContractInterface

namespace Assignments

variable {κ α : Type} [DecidableEq κ]

@[simp]
theorem get?_insert_self (table : Assignments κ α) (name : κ) (value : α) :
  (table.insert name value).get? name = some value
  := by
  induction table with
  | nil => simp [insert, get?]
  | cons entry table ih =>
      by_cases h : entry.1 = name
      · simp [insert, get?, h]
      · simp [insert, get?, h, ih]

theorem get?_insert_of_ne (table : Assignments κ α) {name other : κ} (value : α)
    (h : other ≠ name) :
  (table.insert name value).get? other = table.get? other
  := by
  induction table with
  | nil => simp [insert, get?, h.symm]
  | cons entry table ih =>
      by_cases hentry : entry.1 = name
      · simp [insert, get?, hentry, h.symm]
      · simp [insert, get?, hentry, ih]

/-- In a table of assignments the last one to a name counts. -/
theorem get?_foldl_insert (table : Assignments κ α) (assignments : List (κ × α)) (name : κ) :
  (assignments.foldl (fun table (key, value) => insert table key value) table).get? name =
    (((assignments.filter (·.1 = name)).getLast?).map Prod.snd).or (table.get? name)
  := by
  induction assignments generalizing table with
  | nil => rfl
  | cons assignment assignments ih =>
      obtain ⟨key, value⟩ := assignment
      rw [List.foldl_cons, ih]
      by_cases h : key = name
      · subst h
        rw [get?_insert_self, List.filter_cons_of_pos (by simp), List.getLast?_cons]
        cases (assignments.filter (·.1 = key)).getLast? with
        | none => rfl
        | some last => rfl
      · rw [get?_insert_of_ne table value (Ne.symm h), List.filter_cons_of_neg (by simpa using h)]

theorem mem_of_get?_ofList {assignments : List (κ × α)} {name : κ} {value : α}
    (h : (ofList assignments).get? name = some value) :
  (name, value) ∈ assignments
  := by
  rw [ofList, get?_foldl_insert, get?, Option.or_none] at h
  obtain ⟨⟨key, value'⟩, hlast, rfl⟩ := Option.map_eq_some_iff.mp h
  obtain ⟨hmem, hkey⟩ := List.mem_filter.mp (List.mem_of_getLast? hlast)
  obtain rfl := of_decide_eq_true hkey
  exact hmem

end Assignments

namespace Header

namespace Resolution

variable {α β : Type} {s s' : ResolverState}

/-- The result of a resolution from a state, and the state that it leaves. -/
def outcome (x : Resolution α) (s : ResolverState) : Except ResolveError α × ResolverState :=
  x.run.run s

@[simp]
theorem outcome_pure (a : α) : (pure a : Resolution α).outcome s = (.ok a, s) := rfl

@[simp]
theorem outcome_throw (e : ResolveError) :
  (throw e : Resolution α).outcome s = (.error e, s)
  := rfl

theorem outcome_bind (x : Resolution α) (f : α → Resolution β) :
  (x >>= f).outcome s =
    match x.outcome s with
    | (.ok a, s') => (f a).outcome s'
    | (.error e, s') => (.error e, s')
  := by
  have h : (x >>= f).outcome s = ExceptT.bindCont f (x.outcome s).1 (x.outcome s).2 := rfl
  rw [h]
  rcases x.outcome s with ⟨_ | _, s'⟩
  · rfl
  · rfl

theorem outcome_bind_ok {x : Resolution α} {a : α} (h : x.outcome s = (.ok a, s'))
    (f : α → Resolution β) :
  (x >>= f).outcome s = (f a).outcome s'
  := by
  rw [outcome_bind, h]

theorem outcome_bind_error {x : Resolution α} {e : ResolveError}
    (h : x.outcome s = (.error e, s')) (f : α → Resolution β) :
  (x >>= f).outcome s = (.error e, s')
  := by
  rw [outcome_bind, h]

/-- A composite resolution gives a result if its parts do. -/
theorem outcome_bind_eq_ok_iff {x : Resolution α} {f : α → Resolution β} {b : β} :
  (x >>= f).outcome s = (.ok b, s') ↔
    ∃ a t, x.outcome s = (.ok a, t) ∧ (f a).outcome t = (.ok b, s')
  := by
  rw [outcome_bind]
  rcases x.outcome s with ⟨e | a, t⟩
  · simp
  · constructor
    · intro h
      exact ⟨a, t, rfl, h⟩
    · rintro ⟨_, _, ⟨⟩, h⟩
      exact h

@[simp]
theorem outcome_map (f : α → β) (x : Resolution α) :
  (f <$> x).outcome s = ((x.outcome s).1.map f, (x.outcome s).2)
  := by
  rw [← bind_pure_comp, outcome_bind]
  rcases x.outcome s with ⟨_ | _, s'⟩
  · rfl
  · rfl

@[simp]
theorem outcome_get : (get : Resolution ResolverState).outcome s = (.ok s, s) := rfl

@[simp]
theorem outcome_modify (f : ResolverState → ResolverState) :
  (modify f : Resolution Unit).outcome s = (.ok (), f s)
  := rfl

@[simp]
theorem outcome_warn (message : String) :
  (warn message).outcome s = (.ok (), { s with warnings := s.warnings ++ [message] })
  := rfl

@[simp]
theorem outcome_giveUp (message : String) :
  (giveUp message).outcome s =
    (.ok .placeholder, { s with warnings := s.warnings ++ [message] })
  := rfl

@[simp]
theorem outcome_ofNumeral_ok (a : α) : (ofNumeral (.ok a)).outcome s = (.ok a, s) := rfl

@[simp]
theorem outcome_ofNumeral_error (e : Numeral.Error) :
  (ofNumeral (.error e) : Resolution α).outcome s = (.error (.numeral e), s)
  := rfl

theorem outcome_ofNumeral_eq_ok_iff {x : Except Numeral.Error α} {a : α} :
  (ofNumeral x).outcome s = (.ok a, s') ↔ x = .ok a ∧ s = s'
  := by
  cases x with
  | error e => simp
  | ok b => simp

@[simp]
theorem outcome_onMemo (f : Memo TypeDesc → α × Memo TypeDesc) :
  (onMemo f).outcome s = (.ok (f s.memo).1, { s with memo := (f s.memo).2 })
  := rfl

@[simp]
theorem outcome_andThen (x : Resolution α) (cleanup : ResolverState → ResolverState) :
  (x.andThen cleanup).outcome s = ((x.outcome s).1, cleanup (x.outcome s).2)
  := rfl

theorem outcome_tryCatch (x : Resolution α) (handler : ResolveError → Resolution α) :
  (tryCatch x handler).outcome s =
    match x.outcome s with
    | (.ok a, s') => (.ok a, s')
    | (.error e, s') => (handler e).outcome s'
  := by
  simp only [tryCatch, tryCatchThe, MonadExceptOf.tryCatch, ExceptT.tryCatch, outcome,
    ExceptT.run, ExceptT.mk, StateT.run, bind, StateT.bind]
  rcases x s with ⟨_ | _, s'⟩
  · rfl
  · rfl

end Resolution

open Resolution

/-! ### Structs -/

section Structs

variable {s s' : ResolverState} (scope : Scope) (resolve : Text → Resolution TypeDesc)
  {name : String} {type : TypeDesc} {body : Text}

/-- The state in which the body of a struct is resolved. -/
def ResolverState.enter (s : ResolverState) (name : String) : ResolverState :=
  { s with memo := { s.memo with
      misses := s.memo.misses + 1
      inProgress := name :: s.memo.inProgress } }

/-- A struct that has been resolved is taken from the memo. -/
theorem outcome_resolveStructWith_known (h : s.memo.entries.get? name = some type) :
  (resolveStructWith scope resolve name).outcome s =
    (.ok (some type), { s with memo := { s.memo with hits := s.memo.hits + 1 } })
  := by
  simp [resolveStructWith, outcome_bind, Memo.get, h]

/-- A name under which the header declares no struct has none. -/
theorem outcome_resolveStructWith_absent (h : s.memo.entries.get? name = none)
    (hbody : structBody? scope.source name.toList = none) :
  (resolveStructWith scope resolve name).outcome s =
    (.ok none, { s with memo := { s.memo with misses := s.memo.misses + 1 } })
  := by
  simp [resolveStructWith, outcome_bind, Memo.get, h, hbody]

/-- A struct that is being resolved already is cut. -/
theorem outcome_resolveStructWith_marked (h : s.memo.entries.get? name = none)
    (hbody : structBody? scope.source name.toList = some body)
    (hmark : name ∈ s.memo.inProgress) :
  (resolveStructWith scope resolve name).outcome s =
    (.ok (some .placeholder),
      { s with
        memo := { s.memo with misses := s.memo.misses + 1 }
        warnings := s.warnings ++
          ["Recursive struct reference: " ++ name ++ " (treated as bytes[0])"] })
  := by
  simp [resolveStructWith, outcome_bind, Memo.get, Memo.begin?, h, hbody, hmark,
    Except.map]

/-- A struct that is resolved for the first time is put into the memo. -/
theorem outcome_resolveStructWith_ok (h : s.memo.entries.get? name = none)
    (hbody : structBody? scope.source name.toList = some body)
    (hmark : name ∉ s.memo.inProgress)
    (hresolve : (resolveBody scope resolve body).outcome (s.enter name) = (.ok type, s')) :
  (resolveStructWith scope resolve name).outcome s =
    (.ok (some type), { s' with memo := s'.memo.put name type })
  := by
  rw [ResolverState.enter] at hresolve
  simp [resolveStructWith, outcome_bind, outcome_tryCatch, Memo.get, Memo.begin?, h, hbody,
    hmark, hresolve, Except.map]

/-- A struct whose resolution stops is no longer marked. -/
theorem outcome_resolveStructWith_error {e : ResolveError}
    (h : s.memo.entries.get? name = none)
    (hbody : structBody? scope.source name.toList = some body)
    (hmark : name ∉ s.memo.inProgress)
    (hresolve : (resolveBody scope resolve body).outcome (s.enter name) = (.error e, s')) :
  (resolveStructWith scope resolve name).outcome s =
    (.error e, { s' with memo := s'.memo.abandon name })
  := by
  rw [ResolverState.enter] at hresolve
  simp [resolveStructWith, outcome_bind, outcome_tryCatch, Memo.get, Memo.begin?, h, hbody,
    hmark, hresolve]

/-- The courses that the resolution of a struct can take, each with its outcome. -/
inductive StructCourse (s : ResolverState) (name : String) :
    Except ResolveError (Option TypeDesc) × ResolverState → Prop
  | known {type : TypeDesc} (h : s.memo.entries.get? name = some type) :
    StructCourse s name
      (.ok (some type), { s with memo := { s.memo with hits := s.memo.hits + 1 } })
  | absent (h : s.memo.entries.get? name = none)
      (hbody : structBody? scope.source name.toList = none) :
    StructCourse s name
      (.ok none, { s with memo := { s.memo with misses := s.memo.misses + 1 } })
  | marked (body : Text) (h : s.memo.entries.get? name = none)
      (hbody : structBody? scope.source name.toList = some body)
      (hmark : name ∈ s.memo.inProgress) :
    StructCourse s name
      (.ok (some .placeholder),
        { s with
          memo := { s.memo with misses := s.memo.misses + 1 }
          warnings := s.warnings ++
            ["Recursive struct reference: " ++ name ++ " (treated as bytes[0])"] })
  | resolved (body : Text) (type : TypeDesc) (s' : ResolverState)
      (h : s.memo.entries.get? name = none)
      (hbody : structBody? scope.source name.toList = some body)
      (hmark : name ∉ s.memo.inProgress)
      (hresolve : (resolveBody scope resolve body).outcome (s.enter name) = (.ok type, s')) :
    StructCourse s name (.ok (some type), { s' with memo := s'.memo.put name type })
  | stopped (body : Text) (e : ResolveError) (s' : ResolverState)
      (h : s.memo.entries.get? name = none)
      (hbody : structBody? scope.source name.toList = some body)
      (hmark : name ∉ s.memo.inProgress)
      (hresolve : (resolveBody scope resolve body).outcome (s.enter name) = (.error e, s')) :
    StructCourse s name (.error e, { s' with memo := s'.memo.abandon name })

theorem structCourse (s : ResolverState) (name : String) :
  StructCourse scope resolve s name ((resolveStructWith scope resolve name).outcome s)
  := by
  rcases hget : s.memo.entries.get? name with _ | type
  · rcases hbody : structBody? scope.source name.toList with _ | body
    · rw [outcome_resolveStructWith_absent scope resolve hget hbody]
      apply StructCourse.absent hget hbody
    · by_cases hmark : name ∈ s.memo.inProgress
      · rw [outcome_resolveStructWith_marked scope resolve hget hbody hmark]
        apply StructCourse.marked body hget hbody hmark
      · rcases hresolve : (resolveBody scope resolve body).outcome (s.enter name)
          with ⟨e | type, s'⟩
        · rw [outcome_resolveStructWith_error scope resolve hget hbody hmark hresolve]
          apply StructCourse.stopped body e s' hget hbody hmark hresolve
        · rw [outcome_resolveStructWith_ok scope resolve hget hbody hmark hresolve]
          apply StructCourse.resolved body type s' hget hbody hmark hresolve
  · rw [outcome_resolveStructWith_known scope resolve hget]
    apply StructCourse.known hget

end Structs

/-! ### Aliases -/

section Aliases

variable {s : ResolverState} (resolve : Text → Resolution TypeDesc) {name : String}

/-- An alias that is being expanded already is cut. -/
theorem outcome_resolveAliasWith_marked (target : Text) (hmark : name ∈ s.expanding) :
  (resolveAliasWith resolve name target).outcome s =
    (.ok .placeholder,
      { s with warnings := s.warnings ++
          ["Recursive type alias: " ++ name ++ " (treated as bytes[0])"] })
  := by
  simp [resolveAliasWith, outcome_bind, hmark]

/-- An alias stands for its target, and is marked while the target is resolved. -/
theorem outcome_resolveAliasWith_fresh (target : Text) (hmark : name ∉ s.expanding) :
  (resolveAliasWith resolve name target).outcome s =
    let outcome := (resolve target).outcome { s with expanding := name :: s.expanding }
    (outcome.1,
      { outcome.2 with expanding := outcome.2.expanding.filter (· != name) })
  := by
  simp [resolveAliasWith, outcome_bind, hmark]

/-- The courses that the resolution of an alias can take, each with its outcome. -/
inductive AliasCourse (s : ResolverState) (name : String) (target : Text) :
    Except ResolveError TypeDesc × ResolverState → Prop
  | marked (hmark : name ∈ s.expanding) :
    AliasCourse s name target
      (.ok .placeholder,
        { s with warnings := s.warnings ++
            ["Recursive type alias: " ++ name ++ " (treated as bytes[0])"] })
  | expanded (r : Except ResolveError TypeDesc) (s' : ResolverState)
      (hmark : name ∉ s.expanding)
      (hresolve :
        (resolve target).outcome { s with expanding := name :: s.expanding } = (r, s')) :
    AliasCourse s name target (r, { s' with expanding := s'.expanding.filter (· != name) })

theorem aliasCourse (s : ResolverState) (name : String) (target : Text) :
  AliasCourse resolve s name target ((resolveAliasWith resolve name target).outcome s)
  := by
  by_cases hmark : name ∈ s.expanding
  · rw [outcome_resolveAliasWith_marked resolve target hmark]
    apply AliasCourse.marked hmark
  · rw [outcome_resolveAliasWith_fresh resolve target hmark]
    apply AliasCourse.expanded _ _ hmark rfl

end Aliases

/-! ### The step -/

section Step

variable {scope : Scope} (resolve : Text → Resolution TypeDesc) {declared : Text}

/-- The alias that a declared type is, if the alias does not stand for itself. -/
def Scope.aliasOf? (scope : Scope) (declared : Text) : Option Text :=
  (scope.aliases.get? (String.ofList (typeName declared))).filter
    fun target => typeName target != typeName declared

theorem resolveStep_catalog {known : CatalogType}
    (h : CatalogType.ofName? (typeName declared) = some known) :
  resolveStep scope resolve declared = resolveCatalog scope resolve known
  := by
  unfold resolveStep
  dsimp only
  rw [h]

theorem resolveStep_alias {target : Text}
    (h : CatalogType.ofName? (typeName declared) = none)
    (htarget : scope.aliasOf? declared = some target) :
  resolveStep scope resolve declared =
    resolveAliasWith resolve (String.ofList (typeName declared)) target
  := by
  unfold resolveStep
  unfold Scope.aliasOf? at htarget
  dsimp only
  rw [h]
  dsimp only
  rw [htarget]

theorem resolveStep_struct (h : CatalogType.ofName? (typeName declared) = none)
    (htarget : scope.aliasOf? declared = none) :
  resolveStep scope resolve declared = (do
    match ← resolveStructWith scope resolve (String.ofList (typeName declared)) with
    | some type => return type
    | none =>
      giveUp ("Unknown type: " ++ String.ofList (typeName declared) ++ " (treated as bytes[0])"))
  := by
  unfold resolveStep
  unfold Scope.aliasOf? at htarget
  dsimp only
  rw [h]
  dsimp only
  split
  · rename_i target hsome
    rw [htarget] at hsome
    contradiction
  · rfl

end Step

end Header

end ContractInterface
