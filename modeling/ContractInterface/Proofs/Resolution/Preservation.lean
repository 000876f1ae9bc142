import ContractInterface.Proofs.Resolution.Invariant

/-!
# Resolutions keep properties of types

`Keeps P s x Q` says that the resolution `x` from the state `s` advances the state, that all
structs in the memo still have the property `P` afterwards, and that a result satisfies `Q` with
the warnings of the state that is left.  One lemma for each operation of the resolver shows that
it keeps every `TypeProperty` if the resolution of the types it refers to does, and iterating the
step gives the same of resolutions to any depth.
-/

namespace ContractInterface.Header

open Resolution

/-- From a state, a resolution keeps a property of types and gives results of a kind. -/
structure Keeps {α : Type} (P : TypeProperty) (s : ResolverState) (x : Resolution α)
    (Q : List String → α → Prop) : Prop where
  advances : s.Advances (x.outcome s).2
  known : P.Known (x.outcome s).2
  result : ∀ a, (x.outcome s).1 = .ok a → Q (x.outcome s).2.warnings a

namespace Keeps

variable {α β : Type} {P : TypeProperty} {s : ResolverState}

theorem of_outcome {Q : List String → α → Prop} {x : Resolution α}
    {r : Except ResolveError α} {s' : ResolverState} (h : x.outcome s = (r, s'))
    (hadvances : s.Advances s') (hknown : P.Known s')
    (hresult : ∀ a, r = .ok a → Q s'.warnings a) :
  Keeps P s x Q
  := by
  constructor
  · rw [h]
    apply hadvances
  · rw [h]
    apply hknown
  · rw [h]
    apply hresult

theorem pure {Q : List String → α → Prop} {a : α} (hs : P.Known s) (h : Q s.warnings a) :
  Keeps P s (pure a) Q
  where
  advances := .refl s
  known := hs
  result := by
    rintro _ ⟨⟩
    apply h

theorem throw {Q : List String → α → Prop} (hs : P.Known s) (e : ResolveError) :
  Keeps P s (throw e) Q
  where
  advances := .refl s
  known := hs
  result := by
    rintro _ ⟨⟩

/-- What follows may use all that is known of the state it starts from. -/
theorem bind {Q : List String → α → Prop} {R : List String → β → Prop} {x : Resolution α}
    {f : α → Resolution β} (hx : Keeps P s x Q)
    (hf : ∀ a s', s.Advances s' → P.Known s' → Q s'.warnings a → Keeps P s' (f a) R) :
  Keeps P s (x >>= f) R
  := by
  obtain ⟨hadvances, hknown, hresult⟩ := hx
  rcases h : x.outcome s with ⟨e | a, s'⟩
  · rw [h] at hadvances hknown
    apply of_outcome (outcome_bind_error h f) hadvances hknown
    rintro _ ⟨⟩
  · rw [h] at hadvances hknown hresult
    have hfa := hf a s' hadvances hknown (hresult a rfl)
    apply of_outcome (outcome_bind_ok h f) (hadvances.trans hfa.advances) hfa.known hfa.result

theorem warn (hs : P.Known s) (message : String) :
  Keeps P s (warn message) fun ws _ => ws ≠ []
  where
  advances := .of_counts [message] s.memo.hits s.memo.misses
  known := hs.of_entries rfl (List.prefix_append _ _)
  result := by
    intro _ _
    apply List.append_ne_nil_of_right_ne_nil
    apply List.cons_ne_nil

theorem giveUp (hs : P.Known s) (message : String) :
  Keeps P s (giveUp message) P.holds
  := by
  apply bind (Keeps.warn hs message)
  intro _ s' _ hs' hwarned
  apply pure hs'
  apply P.placeholder hwarned

theorem ofNumeral (hs : P.Known s) (x : Except Numeral.Error α) :
  Keeps P s (ofNumeral x) fun _ _ => True
  := by
  cases x with
  | error e => apply throw hs
  | ok a => apply pure hs trivial

end Keeps

variable {P : TypeProperty} {s : ResolverState}

/-! ### Types of the catalog -/

/-- The types that a catalog entry carries are those that the catalog lists. -/
def CatalogType.Listed : CatalogType → Prop
  | .primitive type => ∃ spelling, (spelling, type) ∈ primitives
  | .aggregate type => ∃ spelling, (spelling, type) ∈ aggregates
  | _ => True

theorem mem_of_lookup_eq_some {table : List (String × TypeDesc)} {name : String}
    {type : TypeDesc} (h : table.lookup name = some type) :
  (name, type) ∈ table
  := by
  obtain ⟨front, back, rfl, -⟩ := List.lookup_eq_some_iff.mp h
  apply List.mem_append_cons_self

theorem CatalogType.listed_of_ofName? {t : Text} {known : CatalogType}
    (h : ofName? t = some known) :
  known.Listed
  := by
  obtain ⟨recognize, hmem, hknown⟩ := List.exists_of_findSome?_eq_some h
  simp only [recognizers, List.mem_cons, List.not_mem_nil, or_false] at hmem
  rcases hmem with rfl | rfl | rfl | rfl | rfl | rfl | rfl | rfl
  · simp only [fixedArray?, Option.bind_eq_bind, Option.bind_eq_some_iff,
      Option.ite_none_left_eq_some, Option.some.injEq] at hknown
    obtain ⟨_, -, _, -, -, _, -, _, -, rfl⟩ := hknown
    trivial
  · simp only [bitArray?, Option.bind_eq_bind, Option.bind_eq_some_iff,
      Option.ite_none_left_eq_some, Option.some.injEq] at hknown
    obtain ⟨_, -, -, _, -, rfl⟩ := hknown
    trivial
  · obtain ⟨_, -, hknown⟩ := List.exists_of_findSome?_eq_some hknown
    obtain ⟨_, -, rfl⟩ := Option.map_eq_some_iff.mp hknown
    trivial
  · obtain ⟨_, -, rfl⟩ := Option.map_eq_some_iff.mp hknown
    trivial
  · obtain ⟨_, -, rfl⟩ := Option.map_eq_some_iff.mp hknown
    trivial
  · obtain ⟨type, htype, rfl⟩ := Option.map_eq_some_iff.mp hknown
    exact ⟨_, mem_of_lookup_eq_some htype⟩
  · obtain ⟨type, htype, rfl⟩ := Option.map_eq_some_iff.mp hknown
    exact ⟨_, mem_of_lookup_eq_some htype⟩
  · simp only [proposalData?, Option.bind_eq_bind, Option.bind_eq_some_iff,
      Option.ite_none_right_eq_some, Option.some.injEq] at hknown
    obtain ⟨_, -, -, rfl⟩ := hknown
    trivial

/-! ### One step -/

variable {scope : Scope} {resolve : Text → Resolution TypeDesc}

/-- From every state, the resolution of a type gives one with the property. -/
def Resolves (P : TypeProperty) (resolve : Text → Resolution TypeDesc) : Prop :=
  ∀ s declared, P.Known s → Keeps P s (resolve declared) P.holds

theorem keeps_length (hs : P.Known s) (token : Text) :
  Keeps P s (scope.length token) fun _ _ => True
  := Keeps.ofNumeral hs _

theorem keeps_resolveCatalog (hresolve : Resolves P resolve) (hs : P.Known s)
    {known : CatalogType} (hknown : known.Listed) :
  Keeps P s (resolveCatalog scope resolve known) P.holds
  := by
  cases known with
  | fixedArray item length =>
      apply Keeps.bind (keeps_length hs length)
      intro n s' _ hs' _
      cases n with
      | none => apply Keeps.giveUp hs'
      | some n =>
          apply Keeps.bind (hresolve s' item hs')
          intro type s'' _ hs'' htype
          apply Keeps.pure hs''
          apply P.array n htype
  | bitArray bits =>
      apply Keeps.bind (keeps_length hs bits)
      intro n s' _ hs' _
      cases n with
      | none => apply Keeps.giveUp hs'
      | some n =>
          apply Keeps.pure hs'
          apply TypeProperty.packedBits
  | integerArray signed width length =>
      apply Keeps.bind (Keeps.ofNumeral hs _)
      intro n s' _ hs' _
      apply Keeps.pure hs'
      apply P.array n
      apply P.scalar
  | idArray length =>
      apply Keeps.bind (Keeps.ofNumeral hs _)
      intro n s' _ hs' _
      apply Keeps.pure hs'
      apply P.array n
      apply P.m256i
  | bitCount length =>
      apply Keeps.bind (Keeps.ofNumeral hs _)
      intro n s' _ hs' _
      apply Keeps.pure hs'
      apply TypeProperty.packedBits
  | primitive type =>
      obtain ⟨spelling, htype⟩ := hknown
      apply Keeps.pure hs
      apply TypeProperty.of_mem_primitives _ htype
  | aggregate type =>
      obtain ⟨spelling, htype⟩ := hknown
      apply Keeps.pure hs
      apply TypeProperty.of_mem_aggregates _ htype
  | proposalData =>
      apply Keeps.pure hs
      apply P.bytes _ (by decide)

theorem keeps_resolveLengths (hs : P.Known s) (tokens : List Text) :
  Keeps P s (resolveLengths scope tokens) fun _ _ => True
  := by
  induction tokens generalizing s with
  | nil => apply Keeps.pure hs trivial
  | cons token tokens ih =>
      apply Keeps.bind (keeps_length hs token)
      intro n s' _ hs' _
      cases n with
      | none =>
          apply Keeps.bind (Keeps.warn hs' _)
          intro _ s'' _ hs'' _
          apply Keeps.pure hs'' trivial
      | some n =>
          apply Keeps.bind (ih hs')
          intro ns s'' _ hs'' _
          apply Keeps.pure hs'' trivial

theorem TypeProperty.foldr_array {ws : List String} (lengths : List Nat) {item : TypeDesc}
    (h : P.holds ws item) :
  P.holds ws (lengths.foldr TypeDesc.array item)
  := by
  induction lengths with
  | nil => apply h
  | cons n lengths ih => apply P.array n ih

theorem keeps_resolveMember (hresolve : Resolves P resolve) (hs : P.Known s) {m : Member}
    (hm : ∀ name ∈ m.names, Text.isIdent name) :
  Keeps P s (resolveMember scope resolve m) P.Fields
  := by
  cases m with
  | array type name lengths =>
      apply Keeps.bind (keeps_resolveLengths hs lengths)
      intro ns s' _ hs' _
      cases ns with
      | none =>
          apply Keeps.pure hs'
          intro field hfield
          contradiction
      | some ns =>
          apply Keeps.bind (hresolve s' type hs')
          intro item s'' _ hs'' hitem
          apply Keeps.pure hs''
          intro field hfield
          obtain rfl := List.mem_singleton.mp hfield
          constructor
          · apply isIdentifier_ofList
            apply hm name (List.mem_singleton_self name)
          · apply TypeProperty.foldr_array ns hitem
  | plain type names =>
      apply Keeps.bind (hresolve s type hs)
      intro t s' _ hs' ht
      apply Keeps.pure hs'
      intro field hfield
      obtain ⟨name, hname, rfl⟩ := List.mem_map.mp hfield
      constructor
      · apply isIdentifier_ofList
        apply hm name hname
      · apply ht

theorem keeps_resolveStatement (hresolve : Resolves P resolve) (hs : P.Known s)
    (statement : Text) :
  Keeps P s (resolveStatement scope resolve statement) P.Fields
  := by
  have hnil : ∀ ws, P.Fields ws [] := by
    intro ws field hfield
    contradiction
  unfold resolveStatement
  split
  · apply Keeps.pure hs (hnil _)
  · rename_i m hm
    apply keeps_resolveMember hresolve hs (Statement.isIdent_of_ofText hm)
  · apply Keeps.bind (Keeps.warn hs _)
    intro _ s' _ hs' _
    apply Keeps.pure hs' (hnil _)

theorem keeps_resolveStatements (hresolve : Resolves P resolve) (hs : P.Known s)
    (statements : List Text) :
  Keeps P s (resolveStatements scope resolve statements) P.Fields
  := by
  induction statements generalizing s with
  | nil =>
      apply Keeps.pure hs
      intro field hfield
      contradiction
  | cons statement statements ih =>
      apply Keeps.bind (keeps_resolveStatement hresolve hs statement)
      intro fields s' _ hs' hfields
      apply Keeps.bind (ih hs')
      intro rest s'' hadvances hs'' hrest
      apply Keeps.pure hs''
      intro field hfield
      rcases List.mem_append.mp hfield with hfield | hfield
      · apply hfields.mono hadvances.warnings field hfield
      · apply hrest field hfield

theorem keeps_resolveBody (hresolve : Resolves P resolve) (hs : P.Known s) (body : Text) :
  Keeps P s (resolveBody scope resolve body)
    fun ws type => ∃ fields, type = .struct fields ∧ P.Fields ws fields
  := by
  apply Keeps.bind (keeps_resolveStatements hresolve hs _)
  intro fields s' _ hs' hfields
  apply Keeps.pure hs'
  use fields, rfl

/-- What a struct name stands for has the property, and unless the struct is being resolved
already, it is a struct. -/
theorem keeps_resolveStructWith (hresolve : Resolves P resolve) (hs : P.Known s)
    (name : String) :
  Keeps P s (resolveStructWith scope resolve name) fun ws found =>
    ∀ type, found = some type → P.holds ws type ∧
      (name ∉ s.memo.inProgress → ∃ fields, type = .struct fields)
  := by
  rcases hget : s.memo.entries.get? name with _ | type
  · rcases hbody : structBody? scope.source name.toList with _ | body
    · apply Keeps.of_outcome (outcome_resolveStructWith_absent scope resolve hget hbody)
      · apply ResolverState.Advances.of_memo_counts
      · apply hs.of_entries rfl (List.prefix_refl _)
      · rintro _ ⟨⟩ _ ⟨⟩
    · by_cases hmark : name ∈ s.memo.inProgress
      · apply Keeps.of_outcome (outcome_resolveStructWith_marked scope resolve hget hbody hmark)
        · apply ResolverState.Advances.of_counts
        · apply hs.of_entries
          · rfl
          · apply List.prefix_append
        · rintro _ ⟨⟩ _ ⟨⟩
          constructor
          · apply P.placeholder
            apply List.append_ne_nil_of_right_ne_nil
            apply List.cons_ne_nil
          · intro hmark'
            contradiction
      · -- the body is resolved from the state in which the name is marked
        have hentered : P.Known (s.enter name) := hs.of_entries rfl (List.prefix_refl _)
        have hkeeps : Keeps P _ (resolveBody scope resolve body) _ :=
          keeps_resolveBody hresolve hentered body
        obtain ⟨hadvances, hknown, hresult⟩ := hkeeps
        rcases h : (resolveBody scope resolve body).outcome (s.enter name) with ⟨e | type, s'⟩
        · rw [h] at hadvances hknown
          apply Keeps.of_outcome (outcome_resolveStructWith_error scope resolve hget hbody hmark h)
          · apply hadvances.abandon hmark
          · apply hknown.of_entries rfl (List.prefix_refl _)
          · rintro _ ⟨⟩
        · rw [h] at hadvances hknown hresult
          obtain ⟨fields, rfl, hfields⟩ := hresult type rfl
          apply Keeps.of_outcome (outcome_resolveStructWith_ok scope resolve hget hbody hmark h)
          · apply hadvances.put _ hget hmark
          · apply hknown.put hfields
          · rintro _ ⟨⟩ _ ⟨⟩
            exact ⟨P.struct hfields, fun _ => ⟨fields, rfl⟩⟩
  · obtain ⟨hstruct, hholds⟩ := hs name type hget
    apply Keeps.of_outcome (outcome_resolveStructWith_known scope resolve hget)
    · apply ResolverState.Advances.of_memo_counts
    · apply hs.of_entries rfl (List.prefix_refl _)
    · rintro _ ⟨⟩ _ ⟨⟩
      exact ⟨hholds, fun _ => hstruct⟩

theorem keeps_resolveAliasWith (hresolve : Resolves P resolve) (hs : P.Known s)
    (name : String) (target : Text) :
  Keeps P s (resolveAliasWith resolve name target) P.holds
  := by
  by_cases hmark : name ∈ s.expanding
  · apply Keeps.of_outcome (outcome_resolveAliasWith_marked resolve target hmark)
    · apply ResolverState.Advances.of_counts [_] s.memo.hits s.memo.misses
    · apply hs.of_entries
      · rfl
      · apply List.prefix_append
    · rintro _ ⟨⟩
      apply P.placeholder
      apply List.append_ne_nil_of_right_ne_nil
      apply List.cons_ne_nil
  · have hentered : P.Known { s with expanding := name :: s.expanding } :=
      hs.of_entries rfl (List.prefix_refl _)
    obtain ⟨hadvances, hknown, hresult⟩ := hresolve _ target hentered
    apply Keeps.of_outcome (outcome_resolveAliasWith_fresh resolve target hmark)
    · apply hadvances.expand hmark
    · apply hknown.of_entries rfl (List.prefix_refl _)
    · apply hresult

theorem keeps_resolveStep (hresolve : Resolves P resolve) :
  Resolves P (resolveStep scope resolve)
  := by
  intro s declared hs
  rcases hname : CatalogType.ofName? (typeName declared) with _ | known
  · rcases halias : scope.aliasOf? declared with _ | target
    · rw [resolveStep_struct resolve hname halias]
      apply Keeps.bind (keeps_resolveStructWith hresolve hs _)
      intro found s' _ hs' hfound
      cases found with
      | none => apply Keeps.giveUp hs'
      | some type =>
          obtain ⟨hholds, -⟩ := hfound type rfl
          apply Keeps.pure hs' hholds
    · rw [resolveStep_alias resolve hname halias]
      apply keeps_resolveAliasWith hresolve hs
  · rw [resolveStep_catalog resolve hname]
    apply keeps_resolveCatalog hresolve hs (CatalogType.listed_of_ofName? hname)

/-! ### Resolutions to any depth -/

/-- The resolution of a declared type keeps every property of types, to whatever depth. -/
theorem resolves_resolveWithin (P : TypeProperty) (scope : Scope) (depth : Nat) :
  Resolves P (resolveWithin scope depth)
  := by
  induction depth with
  | zero =>
      intro s declared hs
      apply Keeps.throw hs
  | succ depth ih => apply keeps_resolveStep ih

end ContractInterface.Header
