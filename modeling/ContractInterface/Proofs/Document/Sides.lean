import ContractInterface.Proofs.Document.Agreement
import ContractInterface.Proofs.Document.Entry
import ContractInterface.Proofs.Resolution.Recovery
import ContractInterface.Proofs.Resolution.Transparency

/-!
# Sides of entries

Both sides of an entry are looked up among the structs of the header, under the name of the entry
and an ending.  Such a name is an identifier that the catalog does not know.  So if the header
declares it as a struct, and not also as an alias, then a field of that type is resolved to the very
struct that the side is: the struct stays in the memo.

A side that the header does not declare as a struct is a side without data, also if there is an
alias under its name.
-/

namespace ContractInterface

/-! ### Names of sides -/

namespace Text

theorem isIdent_append {name rest : Text} (h : isIdent name) (hrest : rest.all isWord) :
  isIdent (name ++ rest)
  := by
  cases name with
  | nil => contradiction
  | cons c name =>
      rw [isIdent, Bool.and_eq_true] at h
      rw [List.cons_append, isIdent, Bool.and_eq_true, List.all_append, Bool.and_eq_true]
      exact ⟨h.1, h.2, hrest⟩

end Text

namespace Header

open Resolution

namespace CatalogType

variable {t : Text}

theorem templateArgument?_of_not_mem (h : '<' ∉ t) (name : String) :
  templateArgument? name t = none
  := by
  unfold templateArgument?
  cases hrest : Text.dropPrefix? name.toList t with
  | none => rfl
  | some rest =>
      have hopen : '<' ∉ Text.trimLeft rest := by
        rw [Text.mem_trimLeft (by decide)]
        intro hmem
        apply h
        rw [Text.eq_append_of_dropPrefix? hrest]
        apply List.mem_append_right _ hmem
      change (Text.dropPrefix? ['<'] (Text.trimLeft rest)).bind _ = none
      rw [dropPrefix?_of_not_mem List.mem_cons_self hopen]
      rfl

theorem digitsAfter?_of_getLast? {c : Char} (h : t.getLast? = some c) (hc : isDecimal c = false)
    (front : String) :
  digitsAfter? front t = none
  := by
  unfold digitsAfter?
  cases hdigits : Text.dropPrefix? front.toList t with
  | none => rfl
  | some digits =>
      change (if digits.isEmpty || !digits.all isDecimal then none else some digits) = none
      rw [if_pos]
      rw [Text.eq_append_of_dropPrefix? hdigits, List.getLast?_append] at h
      cases hlast : digits.getLast? with
      | none => simp [List.getLast?_eq_none_iff.mp hlast]
      | some d =>
          rw [hlast, Option.some_or] at h
          obtain rfl := Option.some.inj h
          have hnot : digits.all isDecimal = false := by
            rw [List.all_eq_false]
            exact ⟨d, List.mem_of_getLast? hlast, by simp [hc]⟩
          simp [hnot]

theorem lookup_of_mem {table : List (String × TypeDesc)} {c : Char}
    (htable : ∀ entry ∈ table, c ∉ entry.1.toList) (h : c ∈ t) :
  table.lookup (String.ofList t) = none
  := by
  cases hlookup : table.lookup (String.ofList t) with
  | none => rfl
  | some type =>
      exfalso
      apply htable _ (mem_of_lookup_eq_some hlookup)
      rw [String.toList_ofList]
      apply h

/-- The catalog has no names with an underscore, other than templates and those that end with a
digit. -/
theorem ofName?_eq_none {c : Char} (htemplate : '<' ∉ t) (hunderscore : '_' ∈ t)
    (hlast : t.getLast? = some c) (hc : isDecimal c = false) :
  ofName? t = none
  := by
  have htemplate name := templateArgument?_of_not_mem htemplate name
  have hdigits front := digitsAfter?_of_getLast? hlast hc front
  have hprimitive : primitives.lookup (String.ofList t) = none := by
    apply lookup_of_mem _ hunderscore
    decide
  have haggregate : aggregates.lookup (String.ofList t) = none := by
    apply lookup_of_mem _ hunderscore
    decide
  simp [ofName?, recognizers, fixedArray?, bitArray?, integerArray?, idArray?, bitCount?,
    primitive?, aggregate?, proposalData?, htemplate, hdigits, hprimitive, haggregate]

end CatalogType

/-- The name of a side: an identifier with one of two endings. -/
def IsSideName (name : String) : Prop :=
  ∃ entry : String, Text.isIdent entry.toList ∧
    ∃ ending ∈ ["_input", "_output"], name = entry ++ ending

/-- The name of a side is looked up as it is, and not known to the catalog. -/
theorem IsSideName.lookup {name : String} (h : IsSideName name) :
  typeName name.toList = name.toList ∧ CatalogType.ofName? name.toList = none
  := by
  obtain ⟨entry, hentry, ending, hending, rfl⟩ := h
  have hendings : ∀ ending ∈ ["_input", "_output"], ending.toList.all isWord ∧
      '_' ∈ ending.toList ∧ ending.toList.getLast? = some 't' := by decide
  obtain ⟨hword, hunderscore, hlast⟩ := hendings ending hending
  rw [String.toList_append]
  have hident : Text.isIdent (entry.toList ++ ending.toList) := Text.isIdent_append hentry hword
  use typeName_of_isIdent hident
  apply CatalogType.ofName?_eq_none (c := 't')
  · intro hmem
    have hangle := Text.isWord_of_isIdent hident '<' hmem
    contradiction
  · apply List.mem_append_right _ hunderscore
  · rw [List.getLast?_append, hlast]
    rfl
  · rfl

/-! ### What is recorded for a side -/

/-- A side of an entry: the name of its struct, and what it was compiled to. -/
structure Side where
  name : String
  type : TypeDesc
  size : Int

/-- Both sides of an entry. -/
def sidesOf (e : Entry TypeDesc) : List Side :=
  [⟨e.name ++ "_input", e.input, e.inputSize⟩, ⟨e.name ++ "_output", e.output, e.outputSize⟩]

/-- A side is what the memo holds under its name, or has no data if the header declares no such
struct. -/
structure Recorded (scope : Scope) (s : ResolverState) (side : Side) : Prop where
  absent : structBody? scope.source side.name.toList = none →
    side.type = .nodata (some 1) ∧ side.size = 1
  declared : ∀ body, structBody? scope.source side.name.toList = some body →
    ∃ fields, s.memo.entries.get? side.name = some (.struct fields) ∧
      side.type = describeSide (.struct fields) ∧ side.size = (TypeDesc.struct fields).size

section Record

variable {scope : Scope} {s s' : ResolverState}

/-- What has been recorded stays. -/
theorem Recorded.of_advances {side : Side} (h : Recorded scope s side) (hadvances : s.Advances s') :
  Recorded scope s' side
  where
  absent := h.absent
  declared := by
    intro body hbody
    obtain ⟨fields, hget, hside⟩ := h.declared body hbody
    exact ⟨fields, hadvances.entries hget, hside⟩

/-- A reliable memo holds only structs that the header declares. -/
theorem exists_structBody? {name : String} {type : TypeDesc} (h : scope.Reliable s)
    (hget : s.memo.entries.get? name = some type) :
  ∃ body, structBody? scope.source name.toList = some body
  := by
  apply Option.ne_none_iff_exists'.mp
  intro hbody
  have hnone : Eventually (fun depth => plainStructWithin scope depth name) (.ok none) := by
    apply Eventually.of_succ
    simp only [plainStructWithin, plainStructWith_absent _ hbody]
    apply Eventually.always (.pure none)
  have hsame := h name type hget _ hnone (by simp)
  simp at hsame

/-- A struct that was looked up while nothing was marked is in the memo, if there is one. -/
theorem get?_of_resolveStruct {name : String} {found : Option TypeDesc} (hs : Idle scope s)
    (h : (scope.resolveStruct name).outcome s = (.ok found, s')) :
  s'.memo.entries.get? name = found ∧
    (found = none ↔ structBody? scope.source name.toList = none)
  := by
  have hcourse := structCourse scope (resolveWithin scope (scope.depth 0)) s name
  change StructCourse scope _ s name ((scope.resolveStruct name).outcome s) at hcourse
  rw [h] at hcourse
  cases hcourse with
  | known hget =>
      obtain ⟨body, hbody⟩ := exists_structBody? hs.reliable hget
      exact ⟨hget, by simp [hbody]⟩
  | absent hget hbody => exact ⟨hget, by simp [hbody]⟩
  | marked body hget hbody hmark =>
      rw [hs.inProgress] at hmark
      contradiction
  | resolved body type t hget hbody hmark hresolve =>
      exact ⟨Assignments.get?_insert_self _ _ _, by simp [hbody]⟩

/-- Nothing is marked, the memo is reliable, and what it holds are structs. -/
def Ready (scope : Scope) (s : ResolverState) : Prop :=
  Idle scope s ∧ TypeProperty.identifiers.Known s

theorem recorded_of_resolveSide {name : String} {side : TypeDesc × Nat} (hs : Ready scope s)
    (h : (resolveSide scope name).outcome s = (.ok side, s')) :
  Ready scope s' ∧ Recorded scope s' ⟨name, side.1, side.2⟩
  := by
  obtain ⟨hidle, hknown⟩ := hs
  have hpreserves : (preserving scope).rel (sideWith scope.resolveStruct name) fun _ =>
      sideWith scope.resolveStruct name := by
    apply (preserving scope).rel_sideWith
    apply preserves_resolveStruct
  have hknown' := (keeps_resolveSide hknown hidle.inProgress scope name).known
  rw [h] at hknown'
  refine ⟨⟨hidle.of_outcome hpreserves h (by simp), hknown'⟩, ?_⟩
  obtain ⟨found, hfound, rfl⟩ := exists_of_resolveSide h
  obtain ⟨hget, hnone⟩ := get?_of_resolveStruct hidle hfound
  constructor
  · intro hbody
    rw [hnone.mpr hbody]
    exact ⟨rfl, rfl⟩
  · intro body hbody
    cases found with
    | none =>
        rw [hnone.mp rfl] at hbody
        contradiction
    | some type =>
        obtain ⟨⟨fields, rfl⟩, -⟩ := hknown' name type hget
        exact ⟨fields, hget, rfl, rfl⟩

theorem recorded_of_compileEntry {r : Registration} {e : Entry TypeDesc} (hs : Ready scope s)
    (h : (compileEntry scope r).outcome s = (.ok e, s')) :
  Ready scope s' ∧ (e.kind = r.kind ∧ e.name = r.name ∧ e.inputType = r.inputType) ∧
    ∀ side ∈ sidesOf e, Recorded scope s' side
  := by
  obtain ⟨input, output, t, hinput, houtput, rfl⟩ := exists_of_compileEntry h
  obtain ⟨ht, hrecorded⟩ := recorded_of_resolveSide hs hinput
  obtain ⟨hs', hrecorded'⟩ := recorded_of_resolveSide ht houtput
  refine ⟨hs', ⟨rfl, rfl, rfl⟩, ?_⟩
  have hadvances := (keeps_resolveSide ht.2 ht.1.inProgress scope (r.name ++ "_output")).advances
  rw [houtput] at hadvances
  simp only [sidesOf, List.forall_mem_cons, List.not_mem_nil, false_implies, implies_true,
    and_true]
  exact ⟨hrecorded.of_advances hadvances, hrecorded'⟩

/-- After a run over all entries, both sides of every entry are recorded. -/
theorem recorded_of_compileEntries {rs : List Registration} {es : List (Entry TypeDesc)}
    (h : (compileEntries scope rs).outcome .start = (.ok es, s')) :
  List.Forall₂ (fun r e => (e.kind = r.kind ∧ e.name = r.name ∧ e.inputType = r.inputType) ∧
    ∀ side ∈ sidesOf e, Recorded scope s' side) rs es
  := by
  obtain ⟨-, hrs⟩ := forall₂_of_compileEntries
    (P := Ready scope)
    (R := fun r e s => (e.kind = r.kind ∧ e.name = r.name ∧ e.inputType = r.inputType) ∧
      ∀ side ∈ sidesOf e, Recorded scope s side)
    recorded_of_compileEntry
    (fun hr hadvances => ⟨hr.1, fun side hside => (hr.2 side hside).of_advances hadvances⟩)
    h ⟨.start, .start⟩
  apply hrs

end Record

/-! ### Sides as types of fields -/

section Fields

variable {scope : Scope} {s : ResolverState} {name : String} {type : TypeDesc}

/-- A field whose type is the name of a side gets what the memo holds under that name. -/
theorem outcome_resolve_of_get? (hname : IsSideName name)
    (halias : scope.aliasOf? name.toList = none) (hget : s.memo.entries.get? name = some type) :
  (scope.resolve name.toList).outcome s =
    (.ok type, { s with memo := { s.memo with hits := s.memo.hits + 1 } })
  := by
  obtain ⟨htypeName, hcatalog⟩ := hname.lookup
  rw [← htypeName] at hcatalog
  rw [scope.outcome_resolve, resolveStep_struct _ hcatalog halias, htypeName,
    String.ofList_toList, outcome_bind_ok (outcome_resolveStructWith_known scope _ hget)]
  rfl

/-- A look-up of the struct of a side gives what the memo holds under its name. -/
theorem outcome_resolveStruct_of_get? (hget : s.memo.entries.get? name = some type) :
  (scope.resolveStruct name).outcome s =
    (.ok (some type), { s with memo := { s.memo with hits := s.memo.hits + 1 } })
  := by
  rw [Scope.resolveStruct, outcome_resolveStructWith_known scope _ hget]

/-- If nothing was cut, then a resolver at its start gives the same answer. -/
theorem answer_start {call : Call} {found : Option TypeDesc} {s' : ResolverState}
    (hfaithful : scope.Faithful s) (h : (call.answer scope).outcome s = (.ok found, s'))
    (hquiet : s'.Quiet) :
  ((call.answer scope).outcome .start).1 = .ok found
  := by
  have hsame := (@Call.answer_eq_start scope call s hfaithful (by rw [h]; exact hquiet)).2
  rw [← hsame, h]

theorem outcome_resolve_start {declared : Text} {s' : ResolverState} (hfaithful : scope.Faithful s)
    (h : (scope.resolve declared).outcome s = (.ok type, s')) (hquiet : s'.Quiet) :
  ((scope.resolve declared).outcome .start).1 = .ok type
  := by
  have hanswer : ((Call.type declared).answer scope).outcome s = (.ok (some type), s') := by
    rw [Call.answer, outcome_bind_ok h]
    rfl
  have hsame := answer_start hfaithful hanswer hquiet
  rw [Call.answer] at hsame
  rcases hstart : (scope.resolve declared).outcome .start with ⟨e | type', t⟩
  · rw [outcome_bind_error hstart] at hsame
    contradiction
  · rw [outcome_bind_ok hstart] at hsame
    simpa using hsame

end Fields

/-- A side that the header declares as a struct is never reported as absent.  Every registration has
its entry, and a side of an entry is the struct that the header declares under its name, described
as a side without data if it has no fields; a side without a struct has no data.

The struct is the one that the resolver that compiled the header finds under that name, without
another warning.  If there is no alias under that name, then it also gives this struct to a field of
that type.  So does a resolver at its start, if nothing was cut. -/
theorem sides_of_compile {options : CompileOptions} {seed : Table Int} {header : Text}
    {d : Document TypeDesc} {o : Outline} (h : compile options seed header = .ok d)
    (ho : outline seed header = .ok o) :
  (∀ r ∈ o.registrations, ∃ e ∈ d.entries,
    e.kind = r.kind ∧ e.name = r.name ∧ e.inputType = r.inputType) ∧
  ∀ e ∈ d.entries, ∀ side ∈ sidesOf e,
    (structBody? o.scope.source side.name.toList = none →
      side.type = .nodata (some 1) ∧ side.size = 1) ∧
    ∀ body, structBody? o.scope.source side.name.toList = some body →
      ∃ fields, side.type = describeSide (.struct fields) ∧
        side.size = (TypeDesc.struct fields).size ∧
        let s := ((compileEntries o.scope o.registrations).outcome .start).2
        (((o.scope.resolveStruct side.name).outcome s).1 = .ok (some (.struct fields)) ∧
          ((o.scope.resolveStruct side.name).outcome s).2.warnings = s.warnings ∧
          (s.Quiet →
            ((o.scope.resolveStruct side.name).outcome .start).1 = .ok (some (.struct fields)))) ∧
        (o.scope.aliasOf? side.name.toList = none →
          ((o.scope.resolve side.name.toList).outcome s).1 = .ok (.struct fields) ∧
          ((o.scope.resolve side.name.toList).outcome s).2.warnings = s.warnings ∧
          (s.Quiet → ((o.scope.resolve side.name.toList).outcome .start).1 = .ok (.struct fields)))
  := by
  obtain ⟨-, -, o', es, ho', hes, hentries⟩ := exists_of_compile_eq_ok h
  obtain rfl := Except.ok.inj (ho.symm.trans ho')
  have hidents : ∀ r ∈ o.registrations, Text.isIdent r.name.toList := by
    obtain ⟨constants, -, ho⟩ := bind_eq_ok_iff.mp ho
    obtain ⟨registrations, hregistrations, ho⟩ := bind_eq_ok_iff.mp ho
    obtain rfl := Except.ok.inj ho
    apply Registration.isIdent_of_mem_all hregistrations
  rcases hrun : (compileEntries o.scope o.registrations).outcome .start with ⟨result, s⟩
  rw [hrun] at hes
  obtain rfl : result = .ok es := hes
  have hrecorded := recorded_of_compileEntries hrun
  rw [hentries]
  constructor
  · intro r hr
    obtain ⟨e, he, hregistered, -⟩ := exists_of_mem_left hrecorded hr
    exact ⟨e, List.mem_mergeSort.mpr he, hregistered⟩
  · intro e he side hside
    obtain ⟨r, hr, ⟨-, hname, -⟩, hsides⟩ :=
      exists_of_mem_left hrecorded.flip (List.mem_mergeSort.mp he)
    have hsideName : IsSideName side.name := by
      simp only [sidesOf, List.mem_cons, List.not_mem_nil, or_false] at hside
      use e.name, hname ▸ hidents r hr
      rcases hside with rfl | rfl
      · exact ⟨"_input", by decide, rfl⟩
      · exact ⟨"_output", by decide, rfl⟩
    obtain ⟨habsent, hdeclared⟩ := hsides side hside
    use habsent
    intro body hbody
    obtain ⟨fields, hget, htype, hsize⟩ := hdeclared body hbody
    refine ⟨fields, htype, hsize, ?_⟩
    have hfaithful (hquiet : s.Quiet) : o.scope.Faithful s :=
      (settles_of_quiet_run hrun (fun _ => .start) hquiet).1
    dsimp only
    constructor
    · have hstruct := @outcome_resolveStruct_of_get? o.scope s side.name _ hget
      refine ⟨by rw [hstruct], by rw [hstruct], ?_⟩
      intro hquiet
      exact @answer_start o.scope s (.struct side.name) _ _ (hfaithful hquiet) hstruct hquiet
    · intro halias
      have hresolve := outcome_resolve_of_get? hsideName halias hget
      refine ⟨by rw [hresolve], by rw [hresolve], ?_⟩
      intro hquiet
      apply outcome_resolve_start (hfaithful hquiet) hresolve hquiet

/-- A header that declares the input of an entry as an alias, and its output as a struct. -/
def aliasSideHeader : Text :=
  "struct Pair \x7b uint64 a; uint64 b; \x7d;\nusing F_input = Pair;\n".toList ++
    "struct F_output \x7b Pair p; \x7d;\nREGISTER_USER_FUNCTION(F, 1);".toList

def aliasSideOutline : Outline :=
  ⟨⟨stripComments aliasSideHeader, [], aliasTable (stripComments aliasSideHeader)⟩,
    [⟨.function, "F", 1⟩]⟩

theorem outline_aliasSide :
  outline [] aliasSideHeader = .ok aliasSideOutline
  := by rfl

/-- A side that is declared as an alias is absent, although a field of that type is not. -/
theorem compile_aliasSide :
  let pair : TypeDesc := .struct [("a", .u64), ("b", .u64)]
  outline [] aliasSideHeader = .ok aliasSideOutline ∧
    aliasSideOutline.scope.aliases.get? "F_input" = some "Pair".toList ∧
    ((aliasSideOutline.scope.resolve "F_input".toList).outcome .start).1 = .ok pair ∧
    (compile sampleOptions [] aliasSideHeader).map (·.entries) =
      .ok [⟨.function, "F", 1, .nodata (some 1), .struct [("p", pair)], 1, 16⟩]
  := by
  use outline_aliasSide
  decide +kernel

/-- The sides of an entry of which one is declared as a struct. -/
theorem sides_of_compile_aliasSide :
  ∃ d, compile sampleOptions [] aliasSideHeader = .ok d ∧
    outline [] aliasSideHeader = .ok aliasSideOutline ∧
    ∃ e ∈ d.entries, e.name = "F" ∧ (e.input = .nodata (some 1) ∧ e.inputSize = 1) ∧
      ∃ fields, e.output = describeSide (.struct fields) ∧
        e.outputSize = (TypeDesc.struct fields).size ∧
        ((aliasSideOutline.scope.resolveStruct "F_output").outcome .start).1 =
          .ok (some (.struct fields)) ∧
        ((aliasSideOutline.scope.resolve "F_output".toList).outcome .start).1 =
          .ok (.struct fields)
  := by
  obtain ⟨hok, hnone, hsome, halias, hquiet⟩ :
      (compile sampleOptions [] aliasSideHeader).isOk ∧
      structBody? aliasSideOutline.scope.source "F_input".toList = none ∧
      (structBody? aliasSideOutline.scope.source "F_output".toList).isSome ∧
      aliasSideOutline.scope.aliasOf? "F_output".toList = none ∧
      ((compileEntries aliasSideOutline.scope aliasSideOutline.registrations).outcome
        .start).2.Quiet := by decide +kernel
  obtain ⟨d, hd⟩ := exists_of_isOk hok
  obtain ⟨hregistered, hsides⟩ := sides_of_compile hd outline_aliasSide
  obtain ⟨e, he, -, hname, -⟩ := hregistered ⟨.function, "F", 1⟩ List.mem_cons_self
  refine ⟨d, hd, outline_aliasSide, e, he, hname, ?_⟩
  have hinput := hsides e he ⟨e.name ++ "_input", e.input, e.inputSize⟩ List.mem_cons_self
  have houtput := hsides e he ⟨e.name ++ "_output", e.output, e.outputSize⟩
    (List.mem_cons_of_mem _ List.mem_cons_self)
  rw [hname] at hinput houtput
  obtain ⟨body, hbody⟩ := Option.isSome_iff_exists.mp hsome
  obtain ⟨fields, htype, hsize, hstruct, hfield⟩ := houtput.2 body hbody
  exact ⟨hinput.1 hnone, fields, htype, hsize, hstruct.2.2 hquiet, (hfield halias).2.2 hquiet⟩

end Header

end ContractInterface
