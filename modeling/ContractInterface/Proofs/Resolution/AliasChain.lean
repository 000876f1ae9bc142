import ContractInterface.Proofs.Header.Location
import ContractInterface.Proofs.Resolution.Termination

/-!
# Chains of aliases

An alias leads from its name to the name of its target, unless the catalog knows its name or it
stands for itself.  The names that are reached from a name this way form a chain, which ends at a
name that leads no further, or returns to a name that was passed.

While a chain is followed, the names passed are marked.  So resolving the name at its beginning is
resolving the one at its end with these marks (`Scope.outcome_resolve_of_leads`): a name that the
catalog knows gives its shape, one that nothing declares is unknown, and one that was passed is
cut.  Afterwards no mark is left.
-/

namespace ContractInterface.Header

open Resolution

/-! ### The chain of a name -/

section Chain

variable {scope : Scope} {name next first last : Text} {path : List Text}

/-- The name to which the alias of a name leads. -/
def Scope.next? (scope : Scope) (name : Text) : Option Text :=
  match CatalogType.ofName? name with
  | some _ => none
  | none => ((scope.aliases.get? (String.ofList name)).map typeName).filter (· != name)

/-- A name leads to another one, through the names that are passed on the way. -/
inductive Scope.Leads (scope : Scope) : Text → List Text → Text → Prop
  | here (name : Text) : scope.Leads name [] name
  | step {name next last : Text} {path : List Text} (hnext : scope.next? name = some next)
      (hrest : scope.Leads next path last) : scope.Leads name (name :: path) last

theorem Scope.next?_eq_some_iff :
  scope.next? name = some next ↔
    CatalogType.ofName? name = none ∧
    ∃ target, scope.aliases.get? (String.ofList name) = some target ∧
      typeName target = next ∧ next ≠ name
  := by
  rw [Scope.next?]
  cases CatalogType.ofName? name with
  | some known => simp
  | none =>
      simp only [Option.filter_eq_some_iff, Option.map_eq_some_iff, bne_iff_ne, true_and]
      constructor
      · rintro ⟨⟨target, hget, rfl⟩, hne⟩
        exact ⟨target, hget, rfl, hne⟩
      · rintro ⟨target, hget, rfl, hne⟩
        exact ⟨⟨target, hget, rfl⟩, hne⟩

/-- The alias that a declared type is leads to the name of its target. -/
theorem Scope.next?_typeName {declared : Text}
    (hcatalog : CatalogType.ofName? (typeName declared) = none) :
  scope.next? (typeName declared) = (scope.aliasOf? declared).map typeName
  := by
  rw [Scope.next?, hcatalog, Scope.aliasOf?]
  cases scope.aliases.get? (String.ofList (typeName declared)) with
  | none => rfl
  | some target =>
      simp only [Option.map_some, Option.filter_some]
      split
      · rfl
      · rfl

namespace Scope.Leads

/-- From every name that is passed, a part of the chain leads to its end. -/
theorem of_mem (h : scope.Leads first path last) (hname : name ∈ path) :
  ∃ rest, scope.Leads name rest last ∧ rest.length ≤ path.length
  := by
  induction h with
  | here first => contradiction
  | @step first next last path hnext hrest ih =>
      rcases List.mem_cons.mp hname with rfl | hname
      · exact ⟨_, .step hnext hrest, Nat.le_refl _⟩
      · obtain ⟨rest, hrest, hlength⟩ := ih hname
        exact ⟨rest, hrest, Nat.le_succ_of_le hlength⟩

/-- A name leads to at most one name that leads no further, and on one way. -/
theorem unique {path' : List Text} {last' : Text} (h : scope.Leads first path last)
    (h' : scope.Leads first path' last') (hlast : scope.next? last = none)
    (hlast' : scope.next? last' = none) :
  path = path' ∧ last = last'
  := by
  induction h generalizing path' with
  | here first =>
      cases h' with
      | here => exact ⟨rfl, rfl⟩
      | step hnext hrest =>
          rw [hlast] at hnext
          contradiction
  | step hnext hrest ih =>
      cases h' with
      | here =>
          rw [hlast'] at hnext
          contradiction
      | step hnext' hrest' =>
          obtain rfl := Option.some.inj (hnext.symm.trans hnext')
          obtain ⟨rfl, rfl⟩ := ih hrest' hlast
          exact ⟨rfl, rfl⟩

/-- A chain that ends passes no name twice. -/
theorem nodup (h : scope.Leads first path last) (hlast : scope.next? last = none) :
  path.Nodup
  := by
  induction h with
  | here first => apply List.nodup_nil
  | @step first next last path hnext hrest ih =>
      apply List.nodup_cons.mpr ⟨?_, ih hlast⟩
      intro hmem
      -- otherwise the rest of the chain would be as long as the whole
      obtain ⟨rest, hagain, hlength⟩ := hrest.of_mem hmem
      obtain ⟨rfl, -⟩ := hagain.unique (.step hnext hrest) hlast hlast
      rw [List.length_cons] at hlength
      omega

/-- Every name that is passed leads further. -/
theorem exists_next? (h : scope.Leads first path last) (hname : name ∈ path) :
  ∃ next, scope.next? name = some next
  := by
  induction h with
  | here first => contradiction
  | @step first next last path hnext hrest ih =>
      rcases List.mem_cons.mp hname with rfl | hname
      · exact ⟨next, hnext⟩
      · exact ih hname

end Scope.Leads

/-- The chain of a name passes unmarked names only, until it ends, returns, or meets a mark. -/
theorem Scope.exists_leads_unmarked (scope : Scope) (s : ResolverState) (name : Text) :
  ∃ path last, scope.Leads name path last ∧ path.Nodup ∧
    (∀ passed ∈ path, String.ofList passed ∉ s.expanding) ∧
    (last ∈ path ∨ String.ofList last ∈ s.expanding ∨ scope.next? last = none)
  := by
  induction hn : scope.unmarked s using Nat.strong_induction_on generalizing s name with
  | _ n ih =>
      cases hnext : scope.next? name with
      | none => exact ⟨[], name, .here name, List.nodup_nil, by simp, .inr (.inr hnext)⟩
      | some next =>
          by_cases hmark : String.ofList name ∈ s.expanding
          · exact ⟨[], name, .here name, List.nodup_nil, by simp, .inr (.inl hmark)⟩
          · obtain ⟨-, target, hget, -⟩ := Scope.next?_eq_some_iff.mp hnext
            have hkey : String.ofList name ∈ scope.aliases.names :=
              List.mem_map_of_mem (Assignments.mem_of_get? hget)
            obtain ⟨path, last, hleads, hnodup, hpath, hlast⟩ :=
              ih _ (hn ▸ Scope.unmarked_expanding_lt hkey hmark) _ next rfl
            simp only [List.mem_cons, String.ofList_inj, not_or] at hpath hlast
            refine ⟨name :: path, last, .step hnext hleads, ?_, ?_, ?_⟩
            · apply List.nodup_cons.mpr ⟨?_, hnodup⟩
              intro hmem
              exact (hpath name hmem).1 rfl
            · rintro passed hpassed
              rcases List.mem_cons.mp hpassed with rfl | hpassed
              · exact hmark
              · exact (hpath passed hpassed).2
            · rcases hlast with hmem | (rfl | hmark') | hend
              · exact .inl (List.mem_cons_of_mem name hmem)
              · exact .inl List.mem_cons_self
              · exact .inr (.inl hmark')
              · exact .inr (.inr hend)

/-- The chain of a name ends or returns to a name that was passed. -/
theorem Scope.exists_leads (scope : Scope) (name : Text) :
  ∃ path last, scope.Leads name path last ∧ path.Nodup ∧ (last ∈ path ∨ scope.next? last = none)
  := by
  obtain ⟨path, last, hleads, hnodup, -, hlast⟩ := scope.exists_leads_unmarked .start name
  exact ⟨path, last, hleads, hnodup, hlast.imp_right (Or.resolve_left · List.not_mem_nil)⟩

end Chain

/-! ### Resolving along a chain -/

section Resolve

variable {scope : Scope} {s : ResolverState} {declared : Text} {path : List Text} {last : Text}

theorem Scope.advances_resolve (scope : Scope) (s : ResolverState) (declared : Text) :
  s.Advances ((scope.resolve declared).outcome s).2
  := advancing_resolveWithin scope _ declared s

/-- An alias that is not marked is resolved as its target, while its name is marked. -/
theorem Scope.outcome_resolve_next {next : Text}
    (hnext : scope.next? (typeName declared) = some next)
    (hmark : String.ofList (typeName declared) ∉ s.expanding) :
  ∃ target, typeName target = next ∧
    (scope.resolve declared).outcome s =
      let outcome := (scope.resolve target).outcome
        { s with expanding := String.ofList (typeName declared) :: s.expanding }
      (outcome.1, { outcome.2 with expanding := s.expanding })
  := by
  have hcatalog := (Scope.next?_eq_some_iff.mp hnext).1
  rw [Scope.next?_typeName hcatalog] at hnext
  obtain ⟨target, halias, rfl⟩ := Option.map_eq_some_iff.mp hnext
  use target, rfl
  rw [scope.outcome_resolve, resolveStep_alias _ hcatalog halias,
    outcome_resolveAliasWith_fresh _ _ hmark]
  dsimp only
  rw [(scope.advances_resolve _ target).expanding, ResolverState.Advances.filter_marked hmark]

/-- An alias that is marked is cut. -/
theorem Scope.outcome_resolve_marked {next : Text}
    (hnext : scope.next? (typeName declared) = some next)
    (hmark : String.ofList (typeName declared) ∈ s.expanding) :
  (scope.resolve declared).outcome s =
    (.ok .placeholder,
      { s with warnings := s.warnings ++
          ["Recursive type alias: " ++ String.ofList (typeName declared) ++
            " (treated as bytes[0])"] })
  := by
  have hcatalog := (Scope.next?_eq_some_iff.mp hnext).1
  rw [Scope.next?_typeName hcatalog] at hnext
  obtain ⟨target, halias, rfl⟩ := Option.map_eq_some_iff.mp hnext
  rw [scope.outcome_resolve, resolveStep_alias _ hcatalog halias,
    outcome_resolveAliasWith_marked _ _ hmark]

/-- A declared type is resolved as one with the name at the end of a chain, while the names that are
passed are marked. -/
theorem Scope.outcome_resolve_of_leads (h : scope.Leads (typeName declared) path last)
    (hnodup : path.Nodup) (hpath : ∀ passed ∈ path, String.ofList passed ∉ s.expanding) :
  ∃ final, typeName final = last ∧
    (scope.resolve declared).outcome s =
      let outcome := (scope.resolve final).outcome
        { s with expanding := path.reverse.map String.ofList ++ s.expanding }
      (outcome.1, { outcome.2 with expanding := s.expanding })
  := by
  generalize hname : typeName declared = name at h
  induction h generalizing s declared with
  | here name =>
      use declared, hname
      have hsame := (scope.advances_resolve s declared).expanding
      change (scope.resolve declared).outcome s =
        (((scope.resolve declared).outcome s).1,
          { ((scope.resolve declared).outcome s).2 with expanding := s.expanding })
      generalize (scope.resolve declared).outcome s = o at hsame ⊢
      rw [← hsame]
  | @step name next last path hnext hrest ih =>
      obtain ⟨hfresh, hrestNodup⟩ := List.nodup_cons.mp hnodup
      obtain ⟨hmark, hrestPath⟩ := List.forall_mem_cons.mp hpath
      subst hname
      obtain ⟨target, htarget, houtcome⟩ := Scope.outcome_resolve_next hnext hmark
      have hunmarked : ∀ passed ∈ path,
          String.ofList passed ∉ String.ofList (typeName declared) :: s.expanding := by
        intro passed hpassed hmem
        rcases List.mem_cons.mp hmem with heq | hmem
        · rw [String.ofList_inj.mp heq] at hpassed
          exact hfresh hpassed
        · exact hrestPath passed hpassed hmem
      obtain ⟨final, hfinal, hsame⟩ :=
        @ih { s with expanding := String.ofList (typeName declared) :: s.expanding } target
          hrestNodup hunmarked htarget
      use final, hfinal
      rw [houtcome, hsame]
      simp only [List.reverse_cons, List.map_append, List.map_cons, List.map_nil,
        List.append_assoc, List.cons_append, List.nil_append]

end Resolve

/-! ### The ends of chains -/

/-- The shape of a catalogued name that says it all: an array template needs the header for its
length, and a length with too many digits is not read. -/
def CatalogType.settled? : CatalogType → Option TypeDesc
  | .fixedArray _ _ => none
  | .bitArray _ => none
  | .integerArray signed width length =>
    if length.length ≤ Numeral.digitLimit then
      some (.array (Numeral.value length) (.scalar (integerScalar signed width)))
    else none
  | .idArray length =>
    if length.length ≤ Numeral.digitLimit then some (.array (Numeral.value length) .m256i) else none
  | .bitCount length =>
    if length.length ≤ Numeral.digitLimit then some (packedBits (Numeral.value length)) else none
  | .primitive type => some type
  | .aggregate type => some type
  | .proposalData => some (.bytes proposalSize)

/-- The state after a type has been looked up in vain: among the structs, with a warning. -/
def ResolverState.missing (s : ResolverState) (name : String) : ResolverState :=
  { s with
    memo := { s.memo with misses := s.memo.misses + 1 }
    warnings := s.warnings ++ ["Unknown type: " ++ name ++ " (treated as bytes[0])"] }

section Ends

variable {scope : Scope} {s : ResolverState} {declared : Text}

theorem outcome_resolveCatalog_of_settled {resolve : Text → Resolution TypeDesc}
    {known : CatalogType} {type : TypeDesc} (h : known.settled? = some type) :
  (resolveCatalog scope resolve known).outcome s = (.ok type, s)
  := by
  have hread : ∀ {length : Text} {shape : Nat → TypeDesc},
      (if length.length ≤ Numeral.digitLimit then some (shape (Numeral.value length)) else none) =
        some type →
      (do return shape (← ofNumeral (Numeral.read length))).outcome s = (.ok type, s) := by
    intro length shape h
    obtain ⟨hlength, h⟩ := Option.ite_none_right_eq_some.mp h
    obtain rfl := Option.some.inj h
    rw [Numeral.read, if_pos hlength]
    rfl
  cases known with
  | fixedArray item length => contradiction
  | bitArray bits => contradiction
  | integerArray signed width length => exact hread h
  | idArray length => exact hread h
  | bitCount length => exact hread h
  | primitive type' =>
      obtain rfl := Option.some.inj h
      rfl
  | aggregate type' =>
      obtain rfl := Option.some.inj h
      rfl
  | proposalData =>
      obtain rfl := Option.some.inj h
      rfl

/-- A type that nothing declares is unknown. -/
theorem Scope.outcome_resolve_absent (hcatalog : CatalogType.ofName? (typeName declared) = none)
    (hnext : scope.next? (typeName declared) = none)
    (hget : s.memo.entries.get? (String.ofList (typeName declared)) = none)
    (hbody : structBody? scope.source (typeName declared) = none) :
  (scope.resolve declared).outcome s =
    (.ok .placeholder, s.missing (String.ofList (typeName declared)))
  := by
  rw [Scope.next?_typeName hcatalog, Option.map_eq_none_iff] at hnext
  rw [← String.toList_ofList (l := typeName declared)] at hbody
  rw [scope.outcome_resolve, resolveStep_struct _ hcatalog hnext,
    outcome_bind_ok (outcome_resolveStructWith_absent scope _ hget hbody)]
  rfl

end Ends

/-- Aliases resolve to the end of their chain, and cycles are cut once.  From a resolver at its
start, the chain of every type ends, or returns to a name that was passed.  If it ends at a name
that the catalog settles, this is the type, without a warning; if it ends at a name that nothing
declares, the placeholder is, with a warning about that name; if it returns, the placeholder is,
with a warning about the first name that is met again.  No alias is left marked, wherever the chain
ends.

A name that nothing declares has no body in the source; an identifier has none if no struct of that
name is defined. -/
theorem Scope.resolve_chain (scope : Scope) (declared : Text) :
  (∃ path last, scope.Leads (typeName declared) path last ∧ path.Nodup ∧
    (last ∈ path ∨ scope.next? last = none)) ∧
  (∀ path last, scope.Leads (typeName declared) path last →
    (∀ known type, CatalogType.ofName? last = some known → known.settled? = some type →
      (scope.resolve declared).outcome .start = (.ok type, .start)) ∧
    (scope.next? last = none → CatalogType.ofName? last = none →
      structBody? scope.source last = none →
      (scope.resolve declared).outcome .start =
        (.ok .placeholder, ResolverState.start.missing (String.ofList last))) ∧
    (path.Nodup → last ∈ path →
      (scope.resolve declared).outcome .start =
        (.ok .placeholder,
          { ResolverState.start with warnings :=
              ["Recursive type alias: " ++ String.ofList last ++ " (treated as bytes[0])"] }))) ∧
  (∀ name, Text.isIdent name → (∀ place rest, ¬DefinesAt scope.source name place rest) →
    structBody? scope.source name = none) ∧
  ((scope.resolve declared).outcome .start).2.expanding = []
  := by
  refine ⟨scope.exists_leads _, ?_, fun name hname h =>
    (structBody?_eq_none_iff hname).mpr (.inl h),
    (scope.advances_resolve .start declared).expanding⟩
  intro path last hleads
  have hfinal (hnodup : path.Nodup) :=
    Scope.outcome_resolve_of_leads (s := .start) hleads hnodup fun _ _ => List.not_mem_nil
  refine ⟨?_, ?_, ?_⟩
  · intro known type hcatalog hsettled
    have hlast : scope.next? last = none := by rw [Scope.next?, hcatalog]
    obtain ⟨final, rfl, houtcome⟩ := hfinal (hleads.nodup hlast)
    rw [houtcome, scope.outcome_resolve, resolveStep_catalog _ hcatalog,
      outcome_resolveCatalog_of_settled hsettled]
  · intro hlast hcatalog hbody
    obtain ⟨final, rfl, houtcome⟩ := hfinal (hleads.nodup hlast)
    rw [houtcome, scope.outcome_resolve_absent hcatalog hlast rfl hbody]
    rfl
  · intro hnodup hmem
    obtain ⟨next, hnext⟩ := hleads.exists_next? hmem
    obtain ⟨final, rfl, houtcome⟩ := hfinal hnodup
    have hmark : String.ofList (typeName final) ∈ path.reverse.map String.ofList ++ [] := by
      rw [List.append_nil]
      apply List.mem_map_of_mem (List.mem_reverse.mpr hmem)
    rw [houtcome, Scope.outcome_resolve_marked hnext hmark]
    rfl

/-- Aliases with qualifiers whose chains end at an identifier array, end at a name that nothing
declares, and return to a name behind the first one. -/
def chainScope : Scope where
  source := "struct Other { uint64 a; };".toList
  constants := []
  aliases := [("A", "const B &".toList), ("B", "QPI::C".toList), ("C", "id_4".toList),
    ("U", "struct V".toList), ("V", "Missing".toList),
    ("K", "L".toList), ("L", "const struct M".toList), ("M", "class L&".toList)]

theorem Scope.resolve_chain_chainScope :
  (chainScope.Leads (typeName "A&".toList) ["A".toList, "B".toList, "C".toList] "id_4".toList ∧
    (chainScope.resolve "A&".toList).outcome .start = (.ok (.array 4 .m256i), .start)) ∧
  (chainScope.Leads (typeName "U".toList) ["U".toList, "V".toList] "Missing".toList ∧
    (chainScope.resolve "U".toList).outcome .start =
      (.ok .placeholder, ResolverState.start.missing "Missing")) ∧
  (chainScope.Leads (typeName "K".toList) ["K".toList, "L".toList, "M".toList] "L".toList ∧
    (chainScope.resolve "K".toList).outcome .start =
      (.ok .placeholder,
        { ResolverState.start with warnings :=
            ["Recursive type alias: L (treated as bytes[0])"] }))
  := by
  have hnames : typeName "A&".toList = "A".toList ∧ typeName "U".toList = "U".toList ∧
      typeName "K".toList = "K".toList := by decide +kernel
  obtain ⟨hnameA, hnameU, hnameK⟩ := hnames
  rw [hnameA, hnameU, hnameK]
  have hnexts : chainScope.next? "A".toList = some "B".toList ∧
      chainScope.next? "B".toList = some "C".toList ∧
      chainScope.next? "C".toList = some "id_4".toList ∧
      chainScope.next? "U".toList = some "V".toList ∧
      chainScope.next? "V".toList = some "Missing".toList ∧
      chainScope.next? "K".toList = some "L".toList ∧
      chainScope.next? "L".toList = some "M".toList ∧
      chainScope.next? "M".toList = some "L".toList := by decide +kernel
  obtain ⟨hAB, hBC, hC, hUV, hV, hKL, hLM, hML⟩ := hnexts
  have hA := Scope.Leads.step hAB (.step hBC (.step hC (.here _)))
  have hU := Scope.Leads.step hUV (.step hV (.here _))
  have hK := Scope.Leads.step hKL (.step hLM (.step hML (.here _)))
  refine ⟨⟨hA, ?_⟩, ⟨hU, ?_⟩, hK, ?_⟩
  · rw [← hnameA] at hA
    exact ((chainScope.resolve_chain _).2.1 _ _ hA).1 (.idArray "4".toList) _
      (by decide +kernel) (by decide +kernel)
  · rw [← hnameU] at hU
    exact ((chainScope.resolve_chain _).2.1 _ _ hU).2.1 (by decide +kernel) (by decide +kernel)
      (by decide +kernel)
  · rw [← hnameK] at hK
    exact ((chainScope.resolve_chain _).2.1 _ _ hK).2.2 (by decide +kernel) (by decide +kernel)

end ContractInterface.Header
