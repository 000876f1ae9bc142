import ContractInterface.Proofs.Document.Sides
import ContractInterface.Proofs.Header.Heading
import ContractInterface.Proofs.Resolution.AliasChain

/-!
# Types that nothing declares

A type that neither the catalog nor an alias knows is looked up among the structs, by its name as a
text.  Where the source heads no struct with that text, the type is unknown: the placeholder stands
in for it, with one warning, and the memo holds what it held.  This is so whatever the resolver was
asked before, since the memo holds only structs that have a body in the source.

The search for the text does not ask whether it is an identifier.  So a text with punctuation finds
the heading that continues this way, and the empty text finds the first heading of a struct.
-/

namespace ContractInterface.Header

open Resolution

/-! ### After calls -/

section Calls

variable {scope : Scope} {s : ResolverState}

theorem preserves_answer (scope : Scope) (call : Call) :
  Preserves scope (call.answer scope)
  := by
  have hsome {x : Resolution TypeDesc} (h : Preserves scope x) :
      Preserves scope (do return some (← x)) :=
    h.bind fun _ => (preserving scope).rel_pure _
  cases call with
  | type declared => exact hsome (preserves_resolveWithin scope _ declared)
  | struct name => exact preserves_resolveStruct scope name
  | fields body => exact hsome (preserves_resolveBody (preserves_resolveWithin scope _) body)

theorem known_answer {P : TypeProperty} (h : P.Known s) (scope : Scope) (call : Call) :
  P.Known ((call.answer scope).outcome s).2
  := by
  have hsome {x : Resolution TypeDesc} {Q : List String → TypeDesc → Prop} (hx : Keeps P s x Q) :
      Keeps P s (do return some (← x)) fun _ _ => True :=
    hx.bind fun _ _ _ hs _ => .pure hs trivial
  cases call with
  | type declared => exact (hsome (resolves_resolveWithin P scope _ s declared h)).known
  | struct name => exact (keeps_resolveStructWith (resolves_resolveWithin P scope _) h name).known
  | fields body => exact (hsome (keeps_resolveBody (resolves_resolveWithin P scope _) h body)).known

/-- Whatever a resolver was asked, its memo holds only structs, each of which has a body in the
source, and nothing is marked. -/
theorem Ready.answers (hs : Ready scope s) (calls : List Call) :
  Ready scope (scope.answers calls s).2
  := by
  induction calls generalizing s with
  | nil => exact hs
  | cons call calls ih =>
      apply ih
      refine ⟨?_, known_answer hs.2 scope call⟩
      exact hs.1.of_outcome (preserves_answer scope call) rfl (call.done_answer scope s)

end Calls

/-! ### Types that are looked up among the structs -/

section Lookup

variable {scope : Scope} {s : ResolverState} {declared : Text}

/-- A type that is looked up among the structs, and has a body there, is that struct. -/
theorem Scope.outcome_resolve_declared (hs : Ready scope s)
    (hcatalog : CatalogType.ofName? (typeName declared) = none)
    (halias : scope.aliasOf? declared = none) {body : Text}
    (hbody : structBody? scope.source (typeName declared) = some body) :
  (some <$> scope.resolve declared).outcome s =
      (scope.resolveStruct (String.ofList (typeName declared))).outcome s ∧
    ∀ type, ((scope.resolve declared).outcome s).1 = .ok type → ∃ fields, type = .struct fields
  := by
  have hkeeps : Keeps .identifiers s (scope.resolveStruct (String.ofList (typeName declared))) _ :=
    keeps_resolveStructWith (resolves_resolveWithin _ scope _) hs.2 _
  have hstruct := hkeeps.result
  rw [outcome_map, scope.outcome_resolve, resolveStep_struct _ hcatalog halias, outcome_bind,
    ← scope.outcome_resolveStruct]
  rcases hfound : (scope.resolveStruct (String.ofList (typeName declared))).outcome s with
    ⟨e | found, s'⟩
  · exact ⟨rfl, by simp⟩
  · obtain ⟨-, hnone⟩ := get?_of_resolveStruct hs.1 hfound
    rw [String.toList_ofList, hbody] at hnone
    cases found with
    | none => simp at hnone
    | some type =>
        rw [hfound] at hstruct
        refine ⟨rfl, ?_⟩
        rintro _ ⟨⟩
        apply (hstruct _ rfl type rfl).2
        simp [hs.1.inProgress]

/-- A type that is looked up among the structs, and has no body there, is unknown. -/
theorem Scope.outcome_resolve_undeclared (hs : Ready scope s)
    (hcatalog : CatalogType.ofName? (typeName declared) = none)
    (halias : scope.aliasOf? declared = none)
    (hbody : structBody? scope.source (typeName declared) = none) :
  (scope.resolve declared).outcome s =
    (.ok .placeholder, s.missing (String.ofList (typeName declared)))
  := by
  apply scope.outcome_resolve_absent hcatalog _ _ hbody
  · rw [Scope.next?_typeName hcatalog, halias]
    rfl
  · apply Option.eq_none_iff_forall_ne_some.mpr
    intro type hget
    obtain ⟨body, hsome⟩ := exists_structBody? hs.1.reliable hget
    rw [String.toList_ofList, hbody] at hsome
    contradiction

end Lookup

/-- A type that neither the catalog nor an alias knows is unknown exactly if the source has no
struct body for its name: then the placeholder stands in for it, one warning names it, and the memo
holds what it held.  This is so where no struct is headed with the name, which for an identifier
means that none of that name is defined.

What has a body is headed with the name, be this an identifier or not, and the type is that struct;
in particular the empty name has the layout of another struct wherever one is defined. -/
theorem Scope.resolve_uncatalogued (scope : Scope) (calls : List Call) {declared : Text}
    (hcatalog : CatalogType.ofName? (typeName declared) = none)
    (halias : scope.aliases.get? (String.ofList (typeName declared)) = none) :
  let name := typeName declared
  let s := (scope.answers calls .start).2
  (¬Heads scope.source name →
    (scope.resolve declared).outcome s = (.ok .placeholder, s.missing (String.ofList name))) ∧
  (Text.isIdent name →
    (Heads scope.source name ↔ ∃ place rest, DefinesAt scope.source name place rest)) ∧
  (name = [] →
    (Heads scope.source name ↔
      ∃ word, word ≠ [] ∧ (∀ c ∈ word, isWord c) ∧ Heads scope.source word)) ∧
  ((scope.resolve declared).outcome s = (.ok .placeholder, s.missing (String.ofList name)) ↔
    structBody? scope.source name = none) ∧
  ∀ body, structBody? scope.source name = some body →
    Heads scope.source name ∧
    (some <$> scope.resolve declared).outcome s =
      (scope.resolveStruct (String.ofList name)).outcome s ∧
    ∀ type, ((scope.resolve declared).outcome s).1 = .ok type → ∃ fields, type = .struct fields
  := by
  intro name s
  have hs : Ready scope s := Ready.answers ⟨.start, .start⟩ calls
  have hnone : scope.aliasOf? declared = none := by
    rw [Scope.aliasOf?, halias]
    rfl
  have hunknown := scope.outcome_resolve_undeclared hs hcatalog hnone
  have hdeclared {body : Text} (hbody : structBody? scope.source name = some body) :=
    scope.outcome_resolve_declared hs hcatalog hnone hbody
  refine ⟨?_, heads_iff_of_isIdent, ?_, ⟨?_, hunknown⟩, ?_⟩
  · intro hheads
    apply hunknown
    apply Option.eq_none_iff_forall_ne_some.mpr
    intro body hbody
    exact hheads (heads_of_structBody? hbody)
  · intro hempty
    rw [hempty]
    exact heads_nil_iff
  · intro houtcome
    apply Option.eq_none_iff_forall_ne_some.mpr
    intro body hbody
    obtain ⟨fields, hfields⟩ := (hdeclared hbody).2 .placeholder (by rw [houtcome])
    contradiction
  · intro body hbody
    exact ⟨heads_of_structBody? hbody, hdeclared hbody⟩

/-- A struct, and one with a base class. -/
def derivedScope : Scope where
  source := "struct Other { uint64 a; }; struct Derived : Other { uint8 b; };".toList
  constants := []
  aliases := [("Alias", "Other".toList)]

/-- A name that is the beginning of another one, and a text that is no identifier but continues as
a heading does. -/
theorem Scope.resolve_uncatalogued_derivedScope :
  let s := (derivedScope.answers [.type "Alias".toList] .start).2
  (typeName "const Oth&".toList = "Oth".toList ∧
    CatalogType.ofName? (typeName "const Oth&".toList) = none ∧
    derivedScope.aliases.get? "Oth" = none ∧
    ¬Heads derivedScope.source "Oth".toList ∧
    (derivedScope.resolve "const Oth&".toList).outcome s = (.ok .placeholder, s.missing "Oth")) ∧
  typeName "Derived : Other".toList = "Derived : Other".toList ∧
  CatalogType.ofName? (typeName "Derived : Other".toList) = none ∧
  derivedScope.aliases.get? "Derived : Other" = none ∧
  structBody? derivedScope.source "Derived : Other".toList = some " uint8 b; ".toList ∧
  Heads derivedScope.source "Derived : Other".toList ∧
  (some <$> derivedScope.resolve "Derived : Other".toList).outcome s =
    (derivedScope.resolveStruct "Derived : Other").outcome s
  := by
  intro s
  have hname : typeName "const Oth&".toList = "Oth".toList ∧
      typeName "Derived : Other".toList = "Derived : Other".toList := by decide +kernel
  obtain ⟨hOth, hDerived⟩ := hname
  have hheads : ¬Heads derivedScope.source (typeName "const Oth&".toList) := by
    rw [← scanFirst?_ne_none_iff]
    decide +kernel
  have hbody : structBody? derivedScope.source (typeName "Derived : Other".toList) =
      some " uint8 b; ".toList := by decide +kernel
  have hunknown := @Scope.resolve_uncatalogued derivedScope [.type "Alias".toList]
    "const Oth&".toList (by decide +kernel) (by decide +kernel)
  have hderived := @Scope.resolve_uncatalogued derivedScope [.type "Alias".toList]
    "Derived : Other".toList (by decide +kernel) (by decide +kernel)
  have houtcome := hunknown.1 hheads
  obtain ⟨hborrows, hsame, -⟩ := hderived.2.2.2.2 _ hbody
  refine ⟨⟨hOth, by decide +kernel, by decide +kernel, ?_, ?_⟩, hDerived, by decide +kernel,
    by decide +kernel, ?_, ?_, ?_⟩
  · rw [← hOth]
    exact hheads
  · rw [hOth] at houtcome
    exact houtcome
  · rw [← hDerived]
    exact hbody
  · rw [← hDerived]
    exact hborrows
  · rw [hDerived] at hsame
    exact hsame

/-- A reference without a type has the empty name, which is no identifier; it takes the layout of
the first struct, without a warning, and leaves it in the memo. -/
theorem resolve_emptyName :
  let scope : Scope := ⟨"struct Other { uint64 a; };".toList, [], []⟩
  let other : TypeDesc := .struct [("a", .u64)]
  (CatalogType.ofName? (typeName "const &".toList) = none ∧
    scope.aliases.get? (String.ofList (typeName "const &".toList)) = none ∧
    ¬Text.isIdent (typeName "const &".toList)) ∧
  (scope.resolve "const &".toList).outcome .start =
    (.ok other, { ResolverState.start with memo := ⟨[("", other)], [], 0, 1⟩ }) ∧
  (scope.resolve "const &".toList).outcome .start ≠
    (.ok .placeholder, ResolverState.start.missing (String.ofList (typeName "const &".toList)))
  := by decide +kernel

end ContractInterface.Header
