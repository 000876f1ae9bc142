import ContractInterface.Proofs.Header.Canonical
import ContractInterface.Proofs.Resolution.Declaration
import ContractInterface.Proofs.Resolution.Preservation

/-!
# Recovering canonical structs

In a text that consists of canonical structs, each of which may use the earlier ones, every struct
resolves to what is written in it: its fields are the declared names in order, a name of an
earlier struct stands for what that struct resolves to, and there is no warning.

The memo of a resolver that works on such a text only ever holds what the structs stand for.  So a
struct may be resolved from any such state, and the proof is by induction on the number of structs
before it.
-/

namespace ContractInterface

namespace Assignments

variable {κ α : Type} [DecidableEq κ]

theorem get?_append (table table' : Assignments κ α) (name : κ) :
  get? (table ++ table') name = (get? table name).or (get? table' name)
  := by
  induction table with
  | nil => rfl
  | cons entry table ih =>
      rw [List.cons_append, get?, get?]
      split
      · rfl
      · exact ih

end Assignments

namespace Header

open Resolution

/-! ### What canonical structs stand for -/

/-- The type that a text stands for, if it is the spelling of a primitive type or a name with a
known type. -/
def typeIn (known : Table TypeDesc) (declared : Text) : Option TypeDesc :=
  (CatalogType.primitives.lookup (String.ofList declared)).or
    (known.get? (String.ofList declared))

/-- The fields that a declaration stands for. -/
def Member.fieldsIn (known : Table TypeDesc) (m : Member) : List (JsonString × TypeDesc) :=
  m.fields ((typeIn known m.type).getD .placeholder)
    (m.lengths.map fun length => Nat.ofDigitChars 10 length 0)

/-- The type that a definition stands for. -/
def StructDef.typeIn (known : Table TypeDesc) (d : StructDef) : TypeDesc :=
  .struct (d.members.flatMap (Member.fieldsIn known))

/-- What the names of a sequence of definitions stand for, after what is known before it. -/
def recover : Table TypeDesc → List StructDef → Table TypeDesc
  | known, [] => known
  | known, d :: ds => recover (known ++ [(String.ofList d.name, d.typeIn known)]) ds

/-- Sequences of canonical definitions, each of which may use the earlier ones. -/
def CanonicalFrom : List Text → List StructDef → Prop
  | _, [] => True
  | earlier, d :: ds => d.Canonical earlier ∧ CanonicalFrom (earlier ++ [d.name]) ds

theorem recover_append (known : Table TypeDesc) (ds ds' : List StructDef) :
  recover known (ds ++ ds') = recover (recover known ds) ds'
  := by
  induction ds generalizing known with
  | nil => rfl
  | cons d ds ih => apply ih

theorem get?_recover_of_known {known : Table TypeDesc} {name : String} {type : TypeDesc}
    (h : known.get? name = some type) (ds : List StructDef) :
  (recover known ds).get? name = some type
  := by
  induction ds generalizing known with
  | nil => exact h
  | cons d ds ih =>
      apply ih
      rw [Assignments.get?_append, h]
      rfl

theorem get?_recover_of_ne {known : Table TypeDesc} {name : String}
    (h : known.get? name = none) {ds : List StructDef}
    (hne : ∀ d ∈ ds, String.ofList d.name ≠ name) :
  (recover known ds).get? name = none
  := by
  induction ds generalizing known with
  | nil => exact h
  | cons d ds ih =>
      apply ih
      · rw [Assignments.get?_append, h]
        simp [Assignments.get?, hne d List.mem_cons_self]
      · intro e he
        apply hne e (List.mem_cons_of_mem d he)

/-- A definition in a canonical sequence uses the names before it. -/
theorem CanonicalFrom.split {earlier : List Text} {front back : List StructDef} {d : StructDef}
    (h : CanonicalFrom earlier (front ++ d :: back)) :
  d.Canonical (earlier ++ front.map StructDef.name)
  := by
  induction front generalizing earlier with
  | nil =>
      rw [List.map_nil, List.append_nil]
      exact h.1
  | cons e front ih =>
      have hd := ih h.2
      rwa [List.append_assoc, List.singleton_append] at hd

theorem CanonicalFrom.of_append {earlier : List Text} {ds ds' : List StructDef}
    (h : CanonicalFrom earlier (ds ++ ds')) :
  CanonicalFrom earlier ds
  := by
  induction ds generalizing earlier with
  | nil => trivial
  | cons d ds ih => exact ⟨h.1, ih h.2⟩

namespace CanonicalFrom

variable {front back : List StructDef} {d : StructDef}
  (h : CanonicalFrom [] (front ++ d :: back))

include h

theorem canonical :
  d.Canonical (front.map StructDef.name)
  := by
  have hd := h.split
  rwa [List.nil_append] at hd

/-- Each of the structs before a struct is itself one of the sequence. -/
theorem exists_of_mem {e : StructDef} (he : e ∈ front) :
  ∃ front' middle, front = front' ++ e :: middle ∧
    CanonicalFrom [] (front' ++ e :: (middle ++ d :: back))
  := by
  obtain ⟨front', middle, rfl⟩ := List.append_of_mem he
  use front', middle, rfl
  rwa [List.append_assoc, List.cons_append] at h

theorem isTypeName :
  ∀ name ∈ front.map StructDef.name, IsTypeName name
  := by
  intro name hname
  obtain ⟨e, he, rfl⟩ := List.mem_map.mp hname
  obtain ⟨front', middle, -, h'⟩ := h.exists_of_mem he
  apply h'.canonical.isTypeName

theorem findable :
  d.Findable
  := h.canonical.findable h.isTypeName

theorem name_ne {e : StructDef} (he : e ∈ front) :
  d.name ≠ e.name
  := by
  intro heq
  apply h.canonical.fresh
  rw [heq]
  apply List.mem_map_of_mem he

/-- The body of each struct is found by its name. -/
theorem structBody?_eq :
  structBody? ((front ++ d :: back).flatMap StructDef.render) d.name = some d.body
  := by
  apply StructDef.structBody?_flatMap h.findable
  intro e he
  obtain ⟨front', middle, -, h'⟩ := h.exists_of_mem he
  exact ⟨h'.findable, h.name_ne he⟩

theorem get?_recover :
  (recover [] (front ++ d :: back)).get? (String.ofList d.name) =
    some (d.typeIn (recover [] front))
  := by
  have hnone : (recover [] front).get? (String.ofList d.name) = none := by
    apply get?_recover_of_ne rfl
    intro e he heq
    exact h.name_ne he (String.ofList_injective heq).symm
  rw [recover_append, recover]
  apply get?_recover_of_known
  rw [Assignments.get?_append, hnone]
  simp [Assignments.get?]

end CanonicalFrom

/-! ### The types of members -/

theorem dropPrefix?_of_not_mem {c : Char} {word t : Text} (hc : c ∈ word) (h : c ∉ t) :
  Text.dropPrefix? word t = none
  := by
  by_contra hsome
  obtain ⟨rest, hrest⟩ := Option.ne_none_iff_exists'.mp hsome
  apply h
  rw [Text.eq_append_of_dropPrefix? hrest]
  apply List.mem_append_left rest hc

/-- An identifier is looked up under its own name. -/
theorem typeName_of_isIdent {t : Text} (h : Text.isIdent t) :
  typeName t = t
  := by
  have hnot : ∀ c, isWord c = false → c ∉ t := by
    intro c hc hmem
    simp [Text.isWord_of_isIdent h c hmem] at hc
  have hspace : ' ' ∉ t := hnot ' ' rfl
  have hcolon : ':' ∉ t := hnot ':' rfl
  have hreference : '&' ∉ t.reverse := by simpa using hnot '&' rfl
  have hconst : dropFront "const " t = t := by
    rw [dropFront, dropPrefix?_of_not_mem (c := ' ') (by decide) hspace]
    rfl
  have helaboration : dropElaboration t = t := by
    rw [dropElaboration, dropPrefix?_of_not_mem (c := ' ') (by decide) hspace, dropFront,
      dropPrefix?_of_not_mem (c := ' ') (by decide) hspace]
    rfl
  have hdrop : dropReference t = t := by
    rw [dropReference, Text.dropSuffix?,
      dropPrefix?_of_not_mem (c := '&') (by decide) hreference]
    rfl
  rw [typeName, Text.collapse_of_solid (Text.ne_nil_of_isIdent h) (Text.solid_of_isIdent h),
    hconst, helaboration, hdrop, dropFront, dropPrefix?_of_not_mem (c := ':') (by decide) hcolon]
  rfl

theorem primitives_catalogued :
  ∀ entry ∈ CatalogType.primitives,
    CatalogType.ofName? (typeName entry.1.toList) = some (.primitive entry.2) ∧
      CatalogType.primitives.lookup entry.1 = some entry.2
  := by
  decide +kernel

section Types

variable {scope : Scope} {t : Text} {type : TypeDesc} {s s' : ResolverState}

theorem outcome_resolveWithin_primitive (h : (String.ofList t, type) ∈ CatalogType.primitives)
    (depth : Nat) :
  (resolveWithin scope (depth + 1) t).outcome s = (.ok type, s)
  := by
  have hname := (primitives_catalogued _ h).1
  rw [String.toList_ofList] at hname
  rw [resolveWithin, resolveStep_catalog _ hname]
  rfl

theorem outcome_resolveWithin_struct (haliases : scope.aliases = []) (hident : Text.isIdent t)
    (hcatalog : CatalogType.ofName? t = none) {depth : Nat}
    (h : (resolveStructWith scope (resolveWithin scope depth) (String.ofList t)).outcome s =
      (.ok (some type), s')) :
  (resolveWithin scope (depth + 1) t).outcome s = (.ok type, s')
  := by
  have hname : CatalogType.ofName? (typeName t) = none := by rwa [typeName_of_isIdent hident]
  have halias : scope.aliasOf? t = none := by
    rw [Scope.aliasOf?, haliases]
    rfl
  rw [resolveWithin, resolveStep_struct _ hname halias, typeName_of_isIdent hident,
    outcome_bind_ok h]
  rfl

theorem typeIn_primitive (h : (String.ofList t, type) ∈ CatalogType.primitives)
    (known : Table TypeDesc) :
  typeIn known t = some type
  := by
  rw [typeIn, (primitives_catalogued _ h).2]
  rfl

/-- A name outside the catalog stands for what is known about it. -/
theorem typeIn_uncatalogued (hident : Text.isIdent t) (h : CatalogType.ofName? t = none)
    (known : Table TypeDesc) :
  typeIn known t = known.get? (String.ofList t)
  := by
  rcases hlookup : CatalogType.primitives.lookup (String.ofList t) with _ | type
  · rw [typeIn, hlookup]
    rfl
  · have hname := (primitives_catalogued _ (mem_of_lookup_eq_some hlookup)).1
    rw [String.toList_ofList, typeName_of_isIdent hident, h] at hname
    contradiction

end Types

theorem Member.Canonical.measures {earlier : List Text} {m : Member}
    (h : m.Canonical earlier) (scope : Scope) :
  scope.Measures (m.lengths.map Text.collapse)
    (m.lengths.map fun length => Nat.ofDigitChars 10 length 0)
  := by
  rw [Scope.Measures, List.forall₂_map_left_iff, List.forall₂_map_right_iff, List.forall₂_same]
  intro length hlength
  obtain ⟨hne, -, hlimit⟩ := h.lengths length hlength
  have hdigits := h.isDigit length hlength
  rw [Text.collapse_of_solid hne fun c hc => isBlank_of_isDigit (hdigits c hc)]
  apply Expr.resolveLength_of_digits hne hdigits hlimit

/-! ### Resolving -/

/-- States of a resolver whose memo holds only what is in a table, with the given marks and
without warnings. -/
structure Sound (table : Table TypeDesc) (marks : List String) (s : ResolverState) : Prop where
  entries : ∀ name type, s.memo.entries.get? name = some type → table.get? name = some type
  inProgress : s.memo.inProgress = marks
  warnings : s.warnings = []

/-- From the states with a property, a resolution gives a result and leaves the property. -/
def Gives {α : Type} (P : ResolverState → Prop) (x : Resolution α) (a : α) : Prop :=
  ∀ s, P s → ∃ s', x.outcome s = (.ok a, s') ∧ P s'

section Body

variable {scope : Scope} {resolve : Text → Resolution TypeDesc} {P : ResolverState → Prop}
  {earlier : List Text} {known : Table TypeDesc}
  (hearlier : ∀ name ∈ earlier, IsTypeName name)

include hearlier

theorem gives_resolveStatement {m : Member} (h : m.Canonical earlier)
    (htype : Gives P (resolve m.type) ((typeIn known m.type).getD .placeholder)) :
  Gives P (resolveStatement scope resolve m.render) (m.fieldsIn known)
  := by
  have hrender := h.collapse_render hearlier
  have hcollapsed := (h.isTypeName hearlier).collapsed
  have hparen : '(' ∉ m.render := h.not_mem_render hearlier rfl (by decide)
  have hlengths := h.measures scope
  intro s hs
  obtain ⟨s', htype, hs'⟩ := htype s hs
  have houtcome := outcome_resolveStatement_render (h.wellFormed hearlier) h.not_mem_marks hparen
    hlengths (by rwa [hcollapsed])
  rw [hrender] at houtcome
  use s', houtcome

theorem gives_resolveStatements {members : List Member}
    (h : ∀ m ∈ members, m.Canonical earlier)
    (htype : ∀ m ∈ members, Gives P (resolve m.type) ((typeIn known m.type).getD .placeholder)) :
  Gives P (resolveStatements scope resolve (members.map Member.render))
    (members.flatMap (Member.fieldsIn known))
  := by
  induction members with
  | nil =>
      intro s hs
      use s, rfl
  | cons m members ih =>
      have ih := ih (fun m' hm' => h m' (List.mem_cons_of_mem m hm'))
        (fun m' hm' => htype m' (List.mem_cons_of_mem m hm'))
      intro s hs
      obtain ⟨s', hfirst, hs'⟩ := gives_resolveStatement hearlier (h m List.mem_cons_self)
        (htype m List.mem_cons_self) s hs
      obtain ⟨s'', hrest, hs''⟩ := ih s' hs'
      use s''
      rw [List.map_cons, outcome_resolveStatements_cons hfirst hrest]
      exact ⟨rfl, hs''⟩

theorem gives_resolveBody {d : StructDef} (h : d.Canonical earlier)
    (htype : ∀ m ∈ d.members,
      Gives P (resolve m.type) ((typeIn known m.type).getD .placeholder)) :
  Gives P (resolveBody scope resolve d.body) (d.typeIn known)
  := by
  intro s hs
  obtain ⟨s', hfields, hs'⟩ := gives_resolveStatements hearlier h.members htype s hs
  use s'
  rw [resolveBody, h.statements_body hearlier, outcome_bind_ok hfields]
  exact ⟨rfl, hs'⟩

end Body

section Structs

variable {scope : Scope} {ds : List StructDef}

theorem Sound.enter {table : Table TypeDesc} {marks : List String} {s : ResolverState}
    (h : Sound table marks s) (name : String) :
  Sound table (name :: marks) (s.enter name)
  where
  entries := h.entries
  inProgress := by rw [← h.inProgress]; rfl
  warnings := h.warnings

theorem Sound.put {table : Table TypeDesc} {marks : List String} {name : String}
    {s : ResolverState} (h : Sound table (name :: marks) s) (hname : name ∉ marks)
    {type : TypeDesc} (htype : table.get? name = some type) :
  Sound table marks { s with memo := s.memo.put name type }
  where
  entries := by
    intro other type' hother
    by_cases heq : other = name
    · subst heq
      rw [Memo.put, Assignments.get?_insert_self] at hother
      rw [htype, hother]
    · rw [Memo.put, Assignments.get?_insert_of_ne _ _ heq] at hother
      apply h.entries other type' hother
  inProgress := by
    have hfilter : (name :: marks).filter (· != name) = marks := by
      rw [List.filter_cons_of_neg (by simp), List.filter_eq_self]
      intro other hother
      rw [bne_iff_ne]
      rintro rfl
      contradiction
    rw [Memo.put, Memo.abandon, h.inProgress]
    exact hfilter
  warnings := h.warnings

/-- The type of a member resolves to what it stands for, if the structs before its struct do. -/
theorem gives_resolveWithin {P : ResolverState → Prop} (haliases : scope.aliases = [])
    {front back : List StructDef} {d : StructDef} (h : CanonicalFrom [] (front ++ d :: back))
    {m : Member} (hm : m.Canonical (front.map StructDef.name)) {depth : Nat}
    (hdepth : front.length < depth)
    (hfront : ∀ front' e middle, front = front' ++ e :: middle →
      CanonicalFrom [] (front' ++ e :: (middle ++ d :: back)) → ∀ {depth'},
      front'.length < depth' →
      Gives P (resolveStructWith scope (resolveWithin scope depth') (String.ofList e.name))
        (some (e.typeIn (recover [] front')))) :
  Gives P (resolveWithin scope depth m.type)
    ((typeIn (recover [] front) m.type).getD .placeholder)
  := by
  obtain ⟨depth, rfl⟩ : ∃ n, depth = n + 1 := Nat.exists_eq_succ_of_ne_zero (by omega)
  rcases hm.type with ⟨type, htype⟩ | hname
  · rw [typeIn_primitive htype]
    intro s hs
    use s, outcome_resolveWithin_primitive htype depth
  · obtain ⟨e, he, hename⟩ := List.mem_map.mp hname
    obtain ⟨front', middle, rfl, h'⟩ := h.exists_of_mem he
    have hcanonical := h'.canonical
    have hrecover := h.of_append.get?_recover
    rw [← hename, typeIn_uncatalogued hcanonical.ident hcanonical.uncatalogued, hrecover]
    have hlength : front'.length < depth := by
      simp only [List.length_append, List.length_cons] at hdepth
      omega
    intro s hs
    obtain ⟨s', hs', hP⟩ := hfront front' e middle rfl h' hlength s hs
    use s', outcome_resolveWithin_struct haliases hcanonical.ident hcanonical.uncatalogued hs'

/-- Every struct resolves to what it stands for, from any state that knows only such things. -/
theorem gives_resolveStructWith (hsource : scope.source = ds.flatMap StructDef.render)
    (haliases : scope.aliases = []) {front back : List StructDef} {d : StructDef}
    (hds : ds = front ++ d :: back) (h : CanonicalFrom [] (front ++ d :: back)) {depth : Nat}
    (hdepth : front.length < depth) {marks : List String}
    (hmarks : ∀ e ∈ front ++ [d], String.ofList e.name ∉ marks) :
  Gives (Sound (recover [] ds) marks)
    (resolveStructWith scope (resolveWithin scope depth) (String.ofList d.name))
    (some (d.typeIn (recover [] front)))
  := by
  -- The induction is on the number of structs in front.
  induction hn : front.length using Nat.strong_induction_on
    generalizing front back d depth marks with
  | _ n ih =>
      subst hn
      have htable : (recover [] ds).get? (String.ofList d.name) =
          some (d.typeIn (recover [] front)) := by
        rw [hds]
        exact h.get?_recover
      have hmark : String.ofList d.name ∉ marks := hmarks d (by simp)
      intro s hs
      rcases hget : s.memo.entries.get? (String.ofList d.name) with _ | type
      · have hbody : structBody? scope.source (String.ofList d.name).toList = some d.body := by
          rw [hsource, hds, String.toList_ofList]
          exact h.structBody?_eq
        have hresolve : Gives (Sound (recover [] ds) (String.ofList d.name :: marks))
            (resolveBody scope (resolveWithin scope depth) d.body)
            (d.typeIn (recover [] front)) := by
          apply gives_resolveBody h.isTypeName h.canonical
          intro m hm
          apply gives_resolveWithin haliases h (h.canonical.members m hm) hdepth
          intro front' e middle hfront h' depth' hdepth'
          apply ih front'.length _ _ h' hdepth' _ rfl
          · simp [hfront]
          · simp [hds, hfront]
          · intro e' he'
            have hmem : e' ∈ front := by
              rw [hfront]
              simp only [List.mem_append, List.mem_cons, List.not_mem_nil, or_false] at he' ⊢
              tauto
            rw [List.mem_cons, not_or]
            constructor
            · intro heq
              exact h.name_ne hmem (String.ofList_injective heq).symm
            · apply hmarks e' (List.mem_append_left [d] hmem)
        obtain ⟨s', hbody', hs'⟩ := hresolve (s.enter _) (hs.enter _)
        use { s' with memo := s'.memo.put (String.ofList d.name) (d.typeIn (recover [] front)) }
        constructor
        · apply outcome_resolveStructWith_ok _ _ hget hbody _ hbody'
          rw [hs.inProgress]
          exact hmark
        · apply hs'.put hmark htable
      · have heq : type = d.typeIn (recover [] front) := by
          have htype := hs.entries _ type hget
          rw [htable] at htype
          exact (Option.some.inj htype).symm
        subst heq
        use { s with memo := { s.memo with hits := s.memo.hits + 1 } }
        constructor
        · apply outcome_resolveStructWith_known _ _ hget
        · exact ⟨hs.entries, hs.inProgress, hs.warnings⟩

theorem Sound.start (table : Table TypeDesc) :
  Sound table [] .start
  where
  entries := by
    intro name type hname
    contradiction
  inProgress := rfl
  warnings := rfl

theorem length_le_flatMap_render (ds : List StructDef) :
  ds.length ≤ (ds.flatMap StructDef.render).length
  := by
  induction ds with
  | nil => simp
  | cons d ds ih =>
      rw [List.flatMap_cons, List.length_append, List.length_cons, StructDef.render,
        List.length_append, List.length_cons]
      omega

/-- There are no more structs than references that may be followed. -/
theorem length_lt_depth (hsource : scope.source = ds.flatMap StructDef.render) (n : Nat) :
  ds.length < scope.depth n
  := by
  have hlength := length_le_flatMap_render ds
  rw [← hsource] at hlength
  have hsquare : scope.source.length + 1 ≤
      (scope.source.length + 1) * (scope.source.length + 1) :=
    Nat.le_mul_of_pos_right _ (by omega)
  calc
    ds.length < scope.aliases.length + (scope.source.length + 1) * (scope.source.length + 1) + 1 := by
      omega
    _ ≤ scope.depth n := Nat.le_mul_of_pos_right _ (by omega)

end Structs

/-- In a text of canonical structs, each of them resolves to what is written in it, without a
warning. -/
theorem outcome_resolveStruct_recover {front back : List StructDef} {d : StructDef}
    (h : CanonicalFrom [] (front ++ d :: back)) (constants : Table Int) :
  let scope : Scope := ⟨(front ++ d :: back).flatMap StructDef.render, constants, []⟩
  ∃ s, (scope.resolveStruct (String.ofList d.name)).outcome .start =
      (.ok (some (d.typeIn (recover [] front))), s) ∧
    s.warnings = []
  := by
  intro scope
  have hsource : scope.source = (front ++ d :: back).flatMap StructDef.render := rfl
  have haliases : scope.aliases = [] := rfl
  have hdepth : front.length < scope.depth 0 := by
    have hlength := length_lt_depth hsource 0
    rw [List.length_append] at hlength
    omega
  have hgives := gives_resolveStructWith hsource haliases rfl h hdepth
    (fun _ _ => List.not_mem_nil)
  obtain ⟨s, hs, hsound⟩ := hgives .start (Sound.start _)
  use s, hs
  exact hsound.warnings

/-- A struct with two members in one declaration. -/
def pointDef : StructDef :=
  ⟨"Point".toList, [.plain "sint32".toList ["x".toList, "y".toList]]⟩

/-- A struct that uses the one before it. -/
def pathDef : StructDef :=
  ⟨"Path".toList,
    [.array "Point".toList "points".toList ["4".toList, "02".toList],
      .plain "unsigned long long".toList ["length".toList]]⟩

theorem canonicalFrom_pathDef :
  CanonicalFrom [] [pointDef, pathDef]
  := by
  refine ⟨⟨by decide, by decide, by decide +kernel, by decide, ?_⟩,
    ⟨by decide, by decide, by decide +kernel, by decide, ?_⟩, trivial⟩
  · intro m hm
    obtain rfl := List.mem_singleton.mp hm
    exact ⟨by decide, by decide, .inl ⟨.scalar .i32, by decide⟩, by decide⟩
  · intro m hm
    rcases List.mem_cons.mp hm with rfl | hm
    · exact ⟨by decide, by decide, .inr (by decide), by decide⟩
    · obtain rfl := List.mem_singleton.mp hm
      exact ⟨by decide, by decide, .inl ⟨.scalar .u64, by decide⟩, by decide⟩

/-- An array of structs, with its dimensions from the outermost to the innermost. -/
theorem outcome_resolveStruct_recover_path :
  let source := "struct Point \x7b sint32 x, y; \x7d;".toList ++
    "struct Path \x7b Point points[4][02]; unsigned long long length; \x7d;".toList
  let point : TypeDesc := .struct [("x", .scalar .i32), ("y", .scalar .i32)]
  ∃ s, (Scope.resolveStruct ⟨source, [], []⟩ "Path").outcome .start =
      (.ok (some (.struct [("points", .array 4 (.array 2 point)), ("length", .u64)])), s) ∧
    s.warnings = []
  := by
  intro source point
  have hsource : [pointDef, pathDef].flatMap StructDef.render = source := by decide +kernel
  have htype : pathDef.typeIn (recover [] [pointDef]) =
      .struct [("points", .array 4 (.array 2 point)), ("length", .u64)] := by decide +kernel
  rw [← hsource, ← htype]
  have h : CanonicalFrom [] ([pointDef] ++ pathDef :: []) := canonicalFrom_pathDef
  exact outcome_resolveStruct_recover h []

end Header

end ContractInterface
