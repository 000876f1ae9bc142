import ContractInterface.Proofs.Header.Member
import ContractInterface.Proofs.Resolution.Outcome
import Mathlib.Data.List.Basic

/-!
# What resolutions keep

A resolution changes the state only in certain ways (`ResolverState.Advances`): warnings are
added at the end, no struct that has been resolved changes, and the names that are marked as
being resolved are the same afterwards, also when the resolution stops.

A `TypeProperty` is a property of types that the ways in which resolutions build types cannot
break; it may depend on the warnings that have been given.  Every type that a resolution gives,
or puts into the memo, has the property.
-/

namespace ContractInterface.Header

/-! ### Changes of the state -/

/-- The changes of the state that a resolution can make. -/
structure ResolverState.Advances (s s' : ResolverState) : Prop where
  warnings : s.warnings <+: s'.warnings
  inProgress : s'.memo.inProgress = s.memo.inProgress
  expanding : s'.expanding = s.expanding
  entries : ∀ {name : String} {type : TypeDesc},
    s.memo.entries.get? name = some type → s'.memo.entries.get? name = some type
  /-- What is being resolved is not put into the memo by others. -/
  marked : ∀ {name : String},
    name ∈ s.memo.inProgress → s'.memo.entries.get? name = s.memo.entries.get? name

namespace ResolverState.Advances

variable {s s' s'' : ResolverState}

theorem refl (s : ResolverState) : s.Advances s
  where
  warnings := List.prefix_refl _
  inProgress := rfl
  expanding := rfl
  entries := id
  marked := fun _ => rfl

theorem trans (h : s.Advances s') (h' : s'.Advances s'') : s.Advances s''
  where
  warnings := h.warnings.trans h'.warnings
  inProgress := h'.inProgress.trans h.inProgress
  expanding := h'.expanding.trans h.expanding
  entries := fun hname => h'.entries (h.entries hname)
  marked := by
    intro name hname
    rw [← h.marked hname]
    apply h'.marked
    rw [h.inProgress]
    apply hname

/-- Adding a warning and counting lookups are changes that a resolution can make. -/
theorem of_counts (message : List String) (hits misses : Nat) :
  s.Advances
    { s with
      memo := { s.memo with hits := hits, misses := misses }
      warnings := s.warnings ++ message }
  where
  warnings := List.prefix_append _ _
  inProgress := rfl
  expanding := rfl
  entries := id
  marked := fun _ => rfl

theorem of_memo_counts (hits misses : Nat) :
  s.Advances { s with memo := { s.memo with hits := hits, misses := misses } }
  where
  warnings := List.prefix_refl _
  inProgress := rfl
  expanding := rfl
  entries := id
  marked := fun _ => rfl

/-- A mark that is removed at the end leaves no trace. -/
theorem filter_marked {names : List String} {name : String} (h : name ∉ names) :
  (name :: names).filter (· != name) = names
  := by
  rw [List.filter_cons_of_neg (by simp)]
  apply List.filter_eq_self.mpr
  intro other hother
  simp only [bne_iff_ne, ne_eq]
  rintro rfl
  apply h hother

/-- Resolving the body of a struct between marking its name and putting it into the memo. -/
theorem put {name : String} (type : TypeDesc) (h : (s.enter name).Advances s')
    (hnone : s.memo.entries.get? name = none) (hmark : name ∉ s.memo.inProgress) :
  s.Advances { s' with memo := s'.memo.put name type }
  where
  warnings := h.warnings
  inProgress := by
    change s'.memo.inProgress.filter _ = _
    rw [h.inProgress]
    apply filter_marked hmark
  expanding := h.expanding
  entries := by
    intro other value hother
    change (s'.memo.entries.insert name type).get? other = _
    rw [Assignments.get?_insert_of_ne]
    · apply h.entries hother
    · rintro rfl
      rw [hnone] at hother
      contradiction
  marked := by
    intro other hother
    change (s'.memo.entries.insert name type).get? other = _
    rw [Assignments.get?_insert_of_ne]
    · apply h.marked (List.mem_cons_of_mem name hother)
    · rintro rfl
      contradiction

/-- Resolving the body of a struct between marking its name and removing the mark. -/
theorem abandon {name : String} (h : (s.enter name).Advances s')
    (hmark : name ∉ s.memo.inProgress) :
  s.Advances { s' with memo := s'.memo.abandon name }
  where
  warnings := h.warnings
  inProgress := by
    change s'.memo.inProgress.filter _ = _
    rw [h.inProgress]
    apply filter_marked hmark
  expanding := h.expanding
  entries := fun hname => h.entries hname
  marked := fun hname => h.marked (List.mem_cons_of_mem name hname)

/-- Resolving the target of an alias between marking its name and removing the mark. -/
theorem expand {name : String} (h : Advances { s with expanding := name :: s.expanding } s')
    (hmark : name ∉ s.expanding) :
  s.Advances { s' with expanding := s'.expanding.filter (· != name) }
  where
  warnings := h.warnings
  inProgress := h.inProgress
  expanding := by
    change s'.expanding.filter _ = _
    rw [h.expanding]
    apply filter_marked hmark
  entries := fun hname => h.entries hname
  marked := fun hname => h.marked hname

end ResolverState.Advances

/-! ### Properties of types -/

/-- A name that is an identifier. -/
def IsIdentifier : JsonString → Prop
  | .text name => Text.isIdent name.toList
  | .broken _ => False

instance : DecidablePred IsIdentifier
  | .text name => inferInstanceAs (Decidable (Text.isIdent name.toList = true))
  | .broken _ => .isFalse id

theorem isIdentifier_ofList {name : Text} (h : Text.isIdent name) :
  IsIdentifier (.text (String.ofList name))
  := by
  rw [IsIdentifier, String.toList_ofList]
  apply h

/-- A property of types, given the warnings so far, that resolutions cannot break.  The
placeholder needs to have it only after a warning. -/
structure TypeProperty where
  holds : List String → TypeDesc → Prop
  mono : ∀ {ws ws' : List String} {type : TypeDesc}, ws <+: ws' → holds ws type → holds ws' type
  placeholder : ∀ {ws : List String}, ws ≠ [] → holds ws .placeholder
  scalar : ∀ (ws : List String) (kind : Scalar), holds ws (.scalar kind)
  bytes : ∀ (ws : List String) {length : Nat}, length ≠ 0 → holds ws (.bytes length)
  m256i : ∀ ws : List String, holds ws .m256i
  array : ∀ {ws : List String} (length : Nat) {item : TypeDesc},
    holds ws item → holds ws (.array length item)
  struct : ∀ {ws : List String} {fields : List (JsonString × TypeDesc)},
    (∀ field ∈ fields, IsIdentifier field.1 ∧ holds ws field.2) →
    holds ws (.struct fields)

namespace TypeProperty

variable (P : TypeProperty)

/-- What has been resolved so far are structs with the property. -/
def Known (s : ResolverState) : Prop :=
  ∀ name type, s.memo.entries.get? name = some type →
    (∃ fields, type = .struct fields) ∧ P.holds s.warnings type

/-- Fields with identifiers as names and types with the property. -/
def Fields (ws : List String) (fields : List (JsonString × TypeDesc)) : Prop :=
  ∀ field ∈ fields, IsIdentifier field.1 ∧ P.holds ws field.2

variable {P}

theorem Known.start : P.Known .start := by
  intro name type h
  contradiction

/-- Warnings, counts and marks do not change what has been resolved. -/
theorem Known.of_entries {s s' : ResolverState} (h : P.Known s)
    (hentries : s'.memo.entries = s.memo.entries) (hwarnings : s.warnings <+: s'.warnings) :
  P.Known s'
  := by
  intro name type htype
  rw [hentries] at htype
  obtain ⟨hstruct, hholds⟩ := h name type htype
  use hstruct
  apply P.mono hwarnings hholds

theorem Known.put {s : ResolverState} {name : String} {fields : List (JsonString × TypeDesc)}
    (h : P.Known s) (hfields : P.Fields s.warnings fields) :
  P.Known { s with memo := s.memo.put name (.struct fields) }
  := by
  intro other type htype
  change (s.memo.entries.insert name (.struct fields)).get? other = some type at htype
  by_cases hother : other = name
  · rw [hother, Assignments.get?_insert_self] at htype
    obtain rfl := Option.some.inj htype
    use ⟨fields, rfl⟩
    apply P.struct hfields
  · rw [Assignments.get?_insert_of_ne _ _ hother] at htype
    apply h other type htype

theorem Fields.mono {ws ws' : List String} {fields : List (JsonString × TypeDesc)}
    (h : P.Fields ws fields) (hws : ws <+: ws') :
  P.Fields ws' fields
  := by
  intro field hfield
  obtain ⟨hname, hholds⟩ := h field hfield
  exact ⟨hname, P.mono hws hholds⟩

theorem packedBits (ws : List String) (bits : Nat) :
  P.holds ws (CatalogType.packedBits bits)
  := by
  apply P.array
  apply P.scalar

/-- The primitive types have the property. -/
theorem of_mem_primitives (ws : List String) {entry : String × TypeDesc}
    (h : entry ∈ CatalogType.primitives) :
  P.holds ws entry.2
  := by
  have hshape : (∃ kind, entry.2 = .scalar kind) ∨ entry.2 = .m256i := by
    simp only [CatalogType.primitives, List.mem_cons, List.not_mem_nil, or_false] at h
    rcases h with rfl | rfl | rfl | rfl | rfl | rfl | rfl | rfl | rfl | rfl | rfl | rfl | rfl |
      rfl | rfl | rfl | rfl | rfl | rfl | rfl | rfl <;> simp
  rcases hshape with ⟨kind, hkind⟩ | hm256i
  · rw [hkind]
    apply P.scalar
  · rw [hm256i]
    apply P.m256i

/-- The library structs have the property. -/
theorem of_mem_aggregates (ws : List String) {entry : String × TypeDesc}
    (h : entry ∈ CatalogType.aggregates) :
  P.holds ws entry.2
  := by
  have hu16 : P.holds ws .u16 := P.scalar ws _
  have hu32 : P.holds ws .u32 := P.scalar ws _
  have hu64 : P.holds ws .u64 := P.scalar ws _
  have hi64 : P.holds ws .i64 := P.scalar ws _
  have hm256i := P.m256i ws
  simp only [CatalogType.aggregates, List.mem_cons, List.not_mem_nil, or_false] at h
  rcases h with rfl | rfl | rfl | rfl | rfl
  · apply P.struct
    simp only [List.forall_mem_cons, List.not_mem_nil, false_implies, implies_true, and_true]
    exact ⟨⟨by decide, hm256i⟩, by decide, hu64⟩
  · apply P.struct
    simp only [List.forall_mem_cons, List.not_mem_nil, false_implies, implies_true, and_true]
    exact ⟨⟨by decide, hu16⟩, ⟨by decide, hu16⟩, ⟨by decide, hu32⟩, by decide, hi64⟩
  · apply P.struct
    simp only [List.forall_mem_cons, List.not_mem_nil, false_implies, implies_true, and_true]
    exact ⟨⟨by decide, hu16⟩, ⟨by decide, hu16⟩, ⟨by decide, hu32⟩,
      ⟨by decide, P.array 8 hi64⟩, by decide, P.array 8 hu32⟩
  · apply P.struct
    simp only [List.forall_mem_cons, List.not_mem_nil, false_implies, implies_true, and_true]
    exact ⟨⟨by decide, hu16⟩, ⟨by decide, hu16⟩, ⟨by decide, hu32⟩, ⟨by decide, hu32⟩,
      ⟨by decide, hu32⟩, by decide, P.bytes ws (by decide)⟩
  · apply P.bytes ws (by decide)

end TypeProperty

end ContractInterface.Header
