import ContractInterface.Document.Basic
import ContractInterface.Proofs.Json.RoundTrip
import ContractInterface.Proofs.TypeDesc.Form
import ContractInterface.Proofs.TypeDesc.Json
import Mathlib.Data.Option.Basic

/-!
# The text of a document

A document can be told from its JSON form, although members that have no value are left out: the
members that an object can have are known, and no two of them have the same name.  The JSON form
is legible, unless a number of the document is too long to be written or the name of a field is not
a text.  So a document can be told from its text.
-/

namespace ContractInterface

namespace Json

/-! ### Objects with members that may be absent -/

theorem legibleItems_iff {items : List Json} :
  LegibleItems items ↔ ∀ item ∈ items, item.Legible
  := by
  induction items with
  | nil => simp [LegibleItems]
  | cons item items ih => simp [LegibleItems, ih]

@[simp]
theorem legible_text (s : String) :
  (text s).Legible
  := ⟨s, rfl⟩

theorem text_injective :
  Function.Injective text
  := by
  intro s s' h
  simpa using h

theorem int_injective :
  Function.Injective Json.int
  := fun _ _ => Json.int.inj

/-- The members that are present. -/
def present (members : List (String × Option Json)) : Members :=
  members.filterMap fun (name, value) => value.map fun v => (.text name, v)

theorem legibleMembers_present {members : List (String × Option Json)}
    (h : ∀ member ∈ members, ∀ v ∈ member.2, v.Legible) :
  LegibleMembers (present members)
  := by
  induction members with
  | nil => trivial
  | cons member members ih =>
      obtain ⟨name, value⟩ := member
      obtain ⟨hvalue, hmembers⟩ := List.forall_mem_cons.mp h
      cases value with
      | none => exact ih hmembers
      | some v => exact ⟨⟨name, rfl⟩, hvalue v rfl, ih hmembers⟩

/-- The names of the members that are present are among the names that there can be. -/
theorem names_present_sublist (members : List (String × Option Json)) :
  (present members).names.Sublist ((members.map Prod.fst).map .text)
  := by
  induction members with
  | nil => exact .slnil
  | cons member members ih =>
      obtain ⟨name, value⟩ := member
      cases value with
      | none => exact ih.cons _
      | some v => exact ih.cons_cons _

theorem legible_ofPresent {members : List (String × Option Json)}
    (hnames : (members.map Prod.fst).Nodup)
    (h : ∀ member ∈ members, ∀ v ∈ member.2, v.Legible) :
  (ofPresent members).Legible
  := by
  refine ⟨?_, legibleMembers_present h⟩
  apply (names_present_sublist members).nodup
  apply hnames.map
  exact fun _ _ => JsonString.text.inj

/-- A member that is present has one of the names that there can be. -/
theorem mem_names_of_present {members : List (String × Option Json)} {name : String} {v : Json}
    {rest : Members} (h : present members = (.text name, v) :: rest) :
  name ∈ members.map Prod.fst
  := by
  have hmem : JsonString.text name ∈ (present members).names := by
    rw [h]
    exact List.mem_cons_self
  obtain ⟨name', hname', heq⟩ := List.mem_map.mp ((names_present_sublist members).subset hmem)
  rwa [← JsonString.text.inj heq]

theorem present_injective {members members' : List (String × Option Json)}
    (hkeys : members.map Prod.fst = members'.map Prod.fst) (hnames : (members.map Prod.fst).Nodup)
    (h : present members = present members') :
  members = members'
  := by
  induction members generalizing members' with
  | nil =>
      rw [List.map_nil, eq_comm, List.map_eq_nil_iff] at hkeys
      exact hkeys.symm
  | cons member members ih =>
      cases members' with
      | nil => contradiction
      | cons member' members' =>
          obtain ⟨name, value⟩ := member
          obtain ⟨name', value'⟩ := member'
          simp only [List.map_cons, List.cons.injEq] at hkeys
          rw [List.map_cons, List.nodup_cons] at hnames
          obtain ⟨rfl, hkeys⟩ := hkeys
          obtain ⟨hfresh, hnames⟩ := hnames
          -- a member that is present on one side only is named twice on the other side
          cases value with
          | none =>
              cases value' with
              | none => rw [ih hkeys hnames h]
              | some v' => exact (hfresh (mem_names_of_present h)).elim
          | some v =>
              cases value' with
              | none =>
                  rw [hkeys] at hfresh
                  exact (hfresh (mem_names_of_present h.symm)).elim
              | some v' =>
                  obtain ⟨hmember, hmembers⟩ := List.cons.inj h
                  rw [ih hkeys hnames hmembers, (Prod.mk.inj hmember).2]

/-- An object tells which of its possible members are absent. -/
theorem ofPresent_injective {members members' : List (String × Option Json)}
    (h : ofPresent members = ofPresent members')
    (hkeys : members.map Prod.fst = members'.map Prod.fst)
    (hnames : (members.map Prod.fst).Nodup) :
  members = members'
  := present_injective hkeys hnames (Json.obj.inj h)

end Json

/-! ### Descriptions -/

namespace TypeDesc

mutual

/-- The lengths and expected sizes in a description, at any depth. -/
def sizes : TypeDesc → List Nat
  | .nodata expectedSize => expectedSize.toList
  | .scalar _ | .m256i => []
  | .bytes length => [length]
  | .array length item => length :: sizes item
  | .struct fields => fieldSizes fields

/-- The lengths and expected sizes in the types of fields. -/
def fieldSizes : List (JsonString × TypeDesc) → List Nat
  | [] => []
  | (_, type) :: fields => sizes type ++ fieldSizes fields

end

/-- A name that is a text. -/
def IsTextName (name : JsonString) : Prop := ∃ t, name = .text t

theorem legible_tagged (type : String) {members : Json.Members}
    (hnames : (JsonString.text "type" :: members.names).Nodup)
    (h : Json.LegibleMembers members) :
  (tagged type members).Legible
  := ⟨hnames, ⟨"type", rfl⟩, Json.legible_text type, h⟩

mutual

theorem legible_toJson :
  (type : TypeDesc) → (∀ n ∈ type.sizes, Numeral.isWritable n) → type.Named IsTextName →
    type.toJson.Legible
  | .nodata none, _, _ => legible_tagged _ (by decide) trivial
  | .nodata (some n), h, _ => by
      have hn := h n List.mem_cons_self
      exact legible_tagged _ (by simp [Assignments.names]) ⟨⟨"expectedSize", rfl⟩, hn, trivial⟩
  | .scalar kind, _, _ => legible_tagged _ (by decide) trivial
  | .bytes length, h, _ => by
      have hlength := h length List.mem_cons_self
      exact legible_tagged _ (by simp [Assignments.names]) ⟨⟨"length", rfl⟩, hlength, trivial⟩
  | .m256i, _, _ => legible_tagged _ (by decide) trivial
  | .array length item, h, hnamed => by
      obtain ⟨hlength, hsizes⟩ := List.forall_mem_cons.mp h
      have hitem := legible_toJson item hsizes hnamed
      exact legible_tagged _ (by simp [Assignments.names])
        ⟨⟨"length", rfl⟩, hlength, ⟨"item", rfl⟩, hitem, trivial⟩
  | .struct fields, h, hnamed => by
      have hfields := legibleItems_fieldsToJson fields h hnamed
      exact legible_tagged _ (by simp [Assignments.names]) ⟨⟨"fields", rfl⟩, hfields, trivial⟩

theorem legibleItems_fieldsToJson :
  (fields : List (JsonString × TypeDesc)) → (∀ n ∈ fieldSizes fields, Numeral.isWritable n) →
    FieldsNamed IsTextName fields → Json.LegibleItems (fieldsToJson fields)
  | [], _, _ => trivial
  | (name, type) :: fields, h, ⟨hname, htypeNamed, hfieldsNamed⟩ => by
      obtain ⟨htype, hfields⟩ := List.forall_mem_append.mp h
      have htype := legible_toJson type htype htypeNamed
      have hfields := legibleItems_fieldsToJson fields hfields hfieldsNamed
      obtain ⟨t, rfl⟩ := hname
      simp [fieldsToJson, Json.Legible, Json.LegibleItems, Json.LegibleMembers, Assignments.names,
        htype, hfields]

end

/-- The tag of a description. -/
def tag : TypeDesc → Tag
  | .nodata _ => .nodata
  | .scalar kind => .scalar kind
  | .bytes _ => .bytes
  | .m256i => .m256i
  | .array _ _ => .array
  | .struct _ => .struct

theorem hasForm_toJson (type : TypeDesc) :
  HasForm type.toJson type.tag
  := by
  cases type <;> rfl

mutual

/-- A description can be told from its JSON form. -/
theorem eq_of_toJson_eq :
  (type type' : TypeDesc) → type.toJson = type'.toJson → type = type'
  | type, type', h => by
      have htag : type.tag = type'.tag := by
        apply (hasForm_toJson type).unique
        rw [h]
        apply hasForm_toJson
      match type, type', htag with
      | .nodata none, .nodata none, _ => rfl
      | .nodata none, .nodata (some _), _ | .nodata (some _), .nodata none, _ =>
          simp [toJson, tagged] at h
      | .nodata (some n), .nodata (some n'), _ => simpa [toJson, tagged] using h
      | .scalar kind, .scalar kind', htag => rw [Tag.scalar.inj htag]
      | .bytes length, .bytes length', _ => simpa [toJson, tagged] using h
      | .m256i, .m256i, _ => rfl
      | .array length item, .array length' item', _ =>
          obtain ⟨hlength, hitem⟩ : length = length' ∧ item.toJson = item'.toJson := by
            simpa [toJson, tagged] using h
          rw [hlength, eq_of_toJson_eq item item' hitem]
      | .struct fields, .struct fields', _ =>
          have hfields : fieldsToJson fields = fieldsToJson fields' := by
            simpa [toJson, tagged] using h
          rw [eq_of_fieldsToJson_eq fields fields' hfields]

theorem eq_of_fieldsToJson_eq :
  (fields fields' : List (JsonString × TypeDesc)) → fieldsToJson fields = fieldsToJson fields' →
    fields = fields'
  | [], [], _ => rfl
  | (name, type) :: fields, (name', type') :: fields', h => by
      obtain ⟨⟨hname, htype⟩, hfields⟩ :
          (name = name' ∧ type.toJson = type'.toJson) ∧
            fieldsToJson fields = fieldsToJson fields' := by
        simpa [fieldsToJson] using h
      rw [hname, eq_of_toJson_eq type type' htype, eq_of_fieldsToJson_eq fields fields' hfields]

end

theorem toJson_injective :
  Function.Injective toJson
  := eq_of_toJson_eq

end TypeDesc

/-! ### Documents -/

namespace Contract

theorem legible_toJson {c : Contract} (h : ∀ n ∈ c.index, Numeral.isWritable n) :
  c.toJson.Legible
  := by
  apply Json.legible_ofPresent (by simp)
  simpa [Json.Legible] using h

theorem toJson_injective :
  Function.Injective toJson
  := by
  intro c c' h
  have hmembers := Json.ofPresent_injective h rfl (by simp)
  cases c
  cases c'
  simpa [(Option.map_injective Json.text_injective).eq_iff,
    (Option.map_injective Json.int_injective).eq_iff] using hmembers

end Contract

namespace Provenance

theorem legible_toJson (p : Provenance) :
  p.toJson.Legible
  := by
  apply Json.legible_ofPresent (by simp)
  simp [Json.Legible, Json.legibleItems_iff]

/-- Warnings can be told from their member, which is absent only if there are none. -/
theorem warnings_injective :
  Function.Injective fun warnings : List String =>
    if warnings.isEmpty then none else some (Json.arr (warnings.map .text))
  := by
  intro warnings warnings' h
  cases warnings with
  | nil =>
      cases warnings' with
      | nil => rfl
      | cons warning' warnings' => contradiction
  | cons warning warnings =>
      cases warnings' with
      | nil => contradiction
      | cons warning' warnings' =>
          apply List.map_injective_iff.mpr Json.text_injective
          exact Json.arr.inj (Option.some.inj h)

theorem toJson_injective :
  Function.Injective toJson
  := by
  intro p p' h
  have hmembers := Json.ofPresent_injective h rfl (by simp)
  cases p
  cases p'
  simpa only [List.cons.injEq, Prod.mk.injEq, true_and, and_true,
    (Option.map_injective Json.text_injective).eq_iff, warnings_injective.eq_iff, mk.injEq]
    using hmembers

end Provenance

theorem EntryKind.name_injective :
  Function.Injective name
  := by
  intro kind kind' h
  cases kind <;> cases kind' <;> first | rfl | exact absurd h (by decide)

namespace Entry

/-- The numbers in an entry. -/
def integers (e : Entry TypeDesc) : List Int :=
  [e.inputType, e.inputSize, e.outputSize] ++ (e.input.sizes ++ e.output.sizes).map Int.ofNat

/-- The names of all fields are texts. -/
def Textual (e : Entry TypeDesc) : Prop :=
  e.input.Named TypeDesc.IsTextName ∧ e.output.Named TypeDesc.IsTextName

theorem legible_toJson {e : Entry TypeDesc} (h : ∀ n ∈ e.integers, Numeral.isWritable n)
    (htextual : e.Textual) :
  (e.toJson TypeDesc.toJson).Legible
  := by
  simp only [integers, List.cons_append, List.nil_append, List.forall_mem_cons, List.forall_mem_map,
    List.forall_mem_append] at h
  obtain ⟨hinputType, hinputSize, houtputSize, hinput, houtput⟩ := h
  have hinput := TypeDesc.legible_toJson e.input hinput htextual.1
  have houtput := TypeDesc.legible_toJson e.output houtput htextual.2
  simp [toJson, Json.Legible, Json.LegibleMembers, Assignments.names, *]

theorem toJson_injective :
  Function.Injective fun e : Entry TypeDesc => e.toJson TypeDesc.toJson
  := by
  intro e e' h
  cases e
  cases e'
  simpa [toJson, EntryKind.name_injective.eq_iff, TypeDesc.toJson_injective.eq_iff] using h

end Entry

namespace Document

/-- The numbers in a document. -/
def integers (d : Document TypeDesc) : List Int :=
  d.contract.index.toList ++ d.entries.flatMap Entry.integers

/-- The names of all fields are texts. -/
def Textual (d : Document TypeDesc) : Prop :=
  ∀ e ∈ d.entries, e.Textual

theorem legible_toJson {d : Document TypeDesc} (h : ∀ n ∈ d.integers, Numeral.isWritable n)
    (htextual : d.Textual) :
  d.toJson.Legible
  := by
  obtain ⟨hindex, hentries⟩ := List.forall_mem_append.mp h
  have hcontract : d.contract.toJson.Legible := by
    apply Contract.legible_toJson
    simpa using hindex
  have hentry (e : Entry TypeDesc) (he : e ∈ d.entries) :
      (e.toJson TypeDesc.toJson).Legible := by
    apply Entry.legible_toJson _ (htextual e he)
    intro n hn
    apply hentries n (List.mem_flatMap_of_mem he hn)
  apply Json.legible_ofPresent (by simp)
  simpa [Json.Legible, Json.legibleItems_iff, hcontract, Provenance.legible_toJson] using hentry

theorem toJson_injective :
  Function.Injective toJson
  := by
  intro d d' h
  have hmembers := Json.ofPresent_injective h rfl (by simp)
  cases d
  cases d'
  simpa [Contract.toJson_injective.eq_iff,
    (List.map_injective_iff.mpr Entry.toJson_injective).eq_iff,
    (Option.map_injective Provenance.toJson_injective).eq_iff] using hmembers

/-- A document all of whose strings are texts, and without numbers that are too long, has a text.
Its text is read as its JSON form, and no other such document has the same text. -/
theorem render_lossless (d : Document TypeDesc) (h : ∀ n ∈ d.integers, Numeral.isWritable n)
    (htextual : d.Textual) :
  ∃ t, d.toJson.render = .ok t ∧ Json.readText t = .ok d.toJson ∧
    ∀ d' : Document TypeDesc, (∀ n ∈ d'.integers, Numeral.isWritable n) → d'.Textual →
      d'.toJson.render = .ok t → d' = d
  := by
  have hlegible := legible_toJson h htextual
  obtain ⟨t, ht, hread⟩ := Json.exists_render hlegible
  refine ⟨t, ht, hread, ?_⟩
  intro d' h' htextual' ht'
  apply toJson_injective
  apply Json.eq_of_render_eq (legible_toJson h' htextual') hlegible
  rw [ht, ht']

/-- A document with strings that are escaped, sizes that are left out, and a provenance that says
nothing. -/
def awkwardDocument : Document TypeDesc where
  version := documentVersion
  contract := ⟨"\"\\\x01é😀", some (-3), none, some ""⟩
  entries := [⟨.procedure, "F", 7, .nodata none, .struct [("", .nodata (some 0)), ("a", .array 2
    (.struct []))], 0, 1⟩]
  provenance := some ⟨none, none, none, none, none, none, []⟩

/-- The text of a document tells a provenance that says nothing from none at all. -/
theorem render_lossless_awkward :
  let d := awkwardDocument
  let bare := { d with provenance := none }
  d.toJson.render ≠ bare.toJson.render ∧ (Json.readText <$> d.toJson.render) = .ok (.ok d.toJson)
  := by
  intro d bare
  have hwritable : ∀ n ∈ d.integers, Numeral.isWritable n := by decide +kernel
  have htextual : d.Textual := by
    simp [d, awkwardDocument, Textual, Entry.Textual, TypeDesc.Named, TypeDesc.FieldsNamed,
      TypeDesc.IsTextName]
  obtain ⟨t, ht, hread, hunique⟩ := render_lossless d hwritable htextual
  rw [ht]
  constructor
  · intro hbare
    have heq := hunique bare hwritable htextual hbare.symm
    exact absurd (congrArg Document.provenance heq) (by decide)
  · change Except.ok (Json.readText t) = _
    rw [hread]

end Document

end ContractInterface
