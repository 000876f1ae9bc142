import ContractInterface.Proofs.Document.Entry
import ContractInterface.Proofs.Document.TypeProperty
import ContractInterface.Proofs.Expr.Length
import ContractInterface.Proofs.TypeDesc.Acceptance
import ContractInterface.TypeDesc.Draft

/-!
# Resolved types are well formed

A layout with checks refuses lengths that are no natural numbers.  It does not refuse any type
that is resolved, whatever the constants and aliases are and whatever the resolver was asked
before: every length in the JSON form of such a type is a natural number, and all names of its
fields are identifiers.  So the compiler, which lays out what it resolves, is never refused a
layout; only a numeral that is too long can stop it.
-/

namespace ContractInterface

namespace Placement

variable {ν ν' : Type}

/-! ### Layouts do not depend on names -/

/-- A placed field under another name. -/
def rename (f : ν → ν') (p : Placement ν) : Placement ν' :=
  ⟨f p.name, p.offset, p.size, p.align⟩

theorem placeFrom_map (f : ν → ν') (offset : Nat) (fields : List (ν × Layout)) :
  placeFrom offset (fields.map (Prod.map f id)) = (placeFrom offset fields).map (rename f)
  := by
  induction fields generalizing offset with
  | nil => rfl
  | cons field fields ih =>
      rw [List.map_cons, placeFrom, placeFrom, List.map_cons, ← ih]
      rfl

theorem enclose_map (f : ν → ν') (placements : List (Placement ν)) :
  enclose (placements.map (rename f)) = enclose placements
  := by
  have hmax : maxAlign (placements.map (rename f)) = maxAlign placements := by
    rw [maxAlign, maxAlign, List.foldl_map]
    rfl
  have hfinish : finish (placements.map (rename f)) = finish placements := by
    rw [finish, finish, List.getLast?_map, Option.map_map]
    rfl
  rw [enclose, hmax, hfinish, enclose]

end Placement

namespace TypeDesc

/-! ### Checked layouts -/

theorem nodataSize_nat (n : Nat) :
  Draft.nodataSize (.int n) = .ok (max 1 n)
  := by
  cases n with
  | zero => rfl
  | succ n => rfl

mutual

/-- The layout with checks refuses nothing in the JSON form of a type. -/
theorem layout_ofJson_toJson :
  (type : TypeDesc) → (Draft.ofJson type.toJson).layout = .ok type.layout
  | .nodata none => rfl
  | .nodata (some n) => by
      change (do return ⟨← Draft.nodataSize (.int n), 1⟩ : Except Draft.Refusal Layout) = _
      rw [nodataSize_nat]
      rfl
  | .scalar kind => by
      cases kind <;> rfl
  | .bytes length => rfl
  | .m256i => rfl
  | .array length item => by
      have hitem := layout_ofJson_toJson item
      change ((Draft.ofJson item.toJson).layout >>= fun l =>
        .ok (Layout.mk (l.size * length) l.align)) = _
      rw [hitem]
      rfl
  | .struct fields => by
      have hfields := fieldLayouts_ofJsonItems fields
      change (Draft.fieldLayouts (Draft.ofJsonItems (fieldsToJson fields)) >>= fun layouts =>
        .ok (Placement.enclose (Placement.place layouts))) = _
      rw [hfields]
      change Except.ok (Placement.enclose (Placement.placeFrom 0 _)) = _
      rw [Placement.placeFrom_map, Placement.enclose_map]
      rfl

theorem fieldLayouts_ofJsonItems :
  (fields : List (JsonString × TypeDesc)) →
    Draft.fieldLayouts (Draft.ofJsonItems (fieldsToJson fields)) =
      .ok ((fieldLayouts fields).map (Prod.map Json.str id))
  | [] => rfl
  | (name, type) :: fields => by
      have htype := layout_ofJson_toJson type
      have hfields := fieldLayouts_ofJsonItems fields
      change ((Draft.ofJson type.toJson).layout >>= fun l =>
        Draft.fieldLayouts (Draft.ofJsonItems (fieldsToJson fields)) >>= fun layouts =>
          .ok ((.str name, l) :: layouts)) = _
      rw [htype, hfields]
      rfl

end

/-- A type that any layout accepts: the names of its fields are identifiers, the lengths in its
JSON form are natural numbers, the layout with checks gives its layout, and its alignment is one
that occurs. -/
structure WellFormed (type : TypeDesc) : Prop where
  named : type.Named Header.IsIdentifier
  lengths : ∀ v size, Visits type.toJson v → HasLength v size → IsNat size
  measured : (Draft.ofJson type.toJson).layout = .ok type.layout
  aligned : type.align ∈ [1, 2, 4, 8]

theorem align_mem (type : TypeDesc) :
  type.align ∈ [1, 2, 4, 8]
  := by
  have hdivisors : ∀ n < 9, n ∣ 8 → n ∈ [1, 2, 4, 8] := by decide
  have hle := Nat.le_of_dvd (by decide) type.align_dvd_eight
  apply hdivisors _ (by omega) type.align_dvd_eight

/-- A type whose fields are named by identifiers is well formed. -/
theorem WellFormed.of_named {type : TypeDesc} (h : type.Named Header.IsIdentifier) :
  type.WellFormed
  where
  named := h
  lengths := by
    intro v size hvisits hsize
    have hdecode := decode_toJson type (h.mono fun _ => Header.IsIdentifier.isProperName) ""
    exact reader.isLength_of_visits ⟨type, hdecode⟩ hvisits hsize
  measured := type.layout_ofJson_toJson
  aligned := type.align_mem

end TypeDesc

namespace Header

/-! ### What stops a compilation -/

theorem done_compileEntries (scope : Scope) (rs : List Registration) (s : ResolverState) :
  ((compileEntries scope rs).outcome s).1 ≠ .error .tooDeep
  := by
  intro h
  obtain ⟨r, -, t, -, hstop⟩ := exists_of_compileEntries_error (P := fun _ => True)
    (fun _ _ => trivial) (Prod.ext h rfl) trivial
  apply done_compileEntry scope t r
  rw [hstop]

theorem compile_ne_tooDeep (options : CompileOptions) (seed : Table Int) (header : Text) :
  compile options seed header ≠ .error .tooDeep
  := by
  intro h
  rw [compile] at h
  cases ho : outline seed header with
  | error e =>
      rw [ho] at h
      cases h
  | ok o =>
      have hdone := done_compileEntries o.scope o.registrations .start
      rw [ho] at h
      change (o.compile options >>= fun compiled => .ok compiled.1) = _ at h
      rcases hrun : (compileEntries o.scope o.registrations).run.run .start with ⟨e | es, s⟩
      · rw [Outline.compile, hrun] at h
        change ((compileEntries o.scope o.registrations).run.run .start).1 ≠ _ at hdone
        rw [hrun] at hdone
        apply hdone
        exact congrArg Except.error (Except.error.inj h)
      · rw [Outline.compile, hrun] at h
        cases h

theorem TypeProperty.Side.wellFormed {ws : List String} {side : TypeDesc}
    (h : TypeProperty.identifiers.Side ws side) :
  side.WellFormed
  := by
  apply TypeDesc.WellFormed.of_named
  rcases h with ⟨size, rfl⟩ | h
  · trivial
  · exact h

/-- Every type that a resolver answers a call of any sequence with, or remembers then, is well
formed, whatever its source, constants and aliases are: a length is the integer that it stands for
if this is not negative, and no length otherwise.  A compilation is stopped by nothing but a
numeral that is too long, and the sides of a compiled document are well formed. -/
theorem resolved_wellFormed :
  (∀ (known : Table Int) (token : Text) (n : Nat),
    Expr.resolveLength known token = .ok (some n) ↔
      Expr.lengthValue known token = .ok (some (n : Int))) ∧
  (∀ (scope : Scope) (calls : List Call),
    (∀ type, .ok (some type) ∈ (scope.answers calls .start).1 → type.WellFormed) ∧
    ∀ name type, (scope.answers calls .start).2.memo.entries.get? name = some type →
      type.WellFormed) ∧
  ∀ (options : CompileOptions) (seed : Table Int) (header : Text),
    (∃ cause, compile options seed header = .error (.numeral cause)) ∨
    ∃ d, compile options seed header = .ok d ∧
      ∀ e ∈ d.entries, e.input.WellFormed ∧ e.output.WellFormed
  := by
  refine ⟨?_, ?_, ?_⟩
  · intro known token n
    exact Expr.resolveLength_eq_some_iff
  · intro scope calls
    obtain ⟨hknown, hanswers⟩ := scope.keeps_answers (@TypeProperty.Known.start .identifiers) calls
    constructor
    · intro type htype
      apply TypeDesc.WellFormed.of_named (hanswers type htype)
    · intro name type htype
      apply TypeDesc.WellFormed.of_named (hknown name type htype).2
  · intro options seed header
    cases h : compile options seed header with
    | error e =>
        cases e with
        | numeral cause => exact .inl ⟨cause, rfl⟩
        | tooDeep => exact absurd h (compile_ne_tooDeep options seed header)
    | ok d =>
        refine .inr ⟨d, rfl, ?_⟩
        intro e he
        obtain ⟨hinput, houtput⟩ := TypeProperty.identifiers.sides_of_compile_eq_ok h e he
        exact ⟨hinput.wellFormed, houtput.wellFormed⟩

/-- A struct whose lengths are given by a negative constant, through an alias, or both. -/
theorem resolved_wellFormed_negative :
  let scope : Scope :=
    ⟨"struct S \x7b uint8 a[N]; Array<id, N> b; BitArray<N> c; T d[N + 3]; \x7d;".toList,
      [("N", -2)], [("T", "Array<uint16, 1 - N>".toList), ("U", "Array<S, N + 2>".toList)]⟩
  let calls : List Call := [.struct "S", .type "U".toList]
  let s : TypeDesc :=
    .struct [("b", .placeholder), ("c", .placeholder), ("d", .array 1 (.array 3 .u16))]
  (scope.answers calls .start).1 = [.ok (some s), .ok (some (.array 0 s))] ∧
  s.WellFormed ∧ (TypeDesc.array 0 s).WellFormed
  := by
  intro scope calls s
  have hanswers : (scope.answers calls .start).1 = [.ok (some s), .ok (some (.array 0 s))] := by
    decide +kernel
  have hwellFormed := (resolved_wellFormed.2.1 scope calls).1
  rw [hanswers] at hwellFormed
  exact ⟨hanswers, hwellFormed s (by simp), hwellFormed _ (by simp)⟩

end Header

end ContractInterface
