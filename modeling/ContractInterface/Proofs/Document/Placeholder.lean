import ContractInterface.Proofs.Document.TypeProperty

/-!
# Placeholders come with warnings

The placeholder is a run of no bytes, and nothing else that is ever resolved contains such a run.
It is given only with a warning.  It may be given again later without one, inside of a struct that
the memo holds; but warnings stay, so that there are none only if no placeholder was ever given.
-/

namespace ContractInterface

namespace TypeDesc

mutual

/-- Whether a run of no bytes stands in a type, at whatever depth. -/
def hasPlaceholder : TypeDesc → Bool
  | .nodata _ | .scalar _ | .m256i => false
  | .bytes length => length == 0
  | .array _ item => hasPlaceholder item
  | .struct fields => fieldsHavePlaceholder fields

/-- Whether a run of no bytes stands in the types of fields. -/
def fieldsHavePlaceholder : List (JsonString × TypeDesc) → Bool
  | [] => false
  | (_, type) :: fields => hasPlaceholder type || fieldsHavePlaceholder fields

end

theorem fieldsHavePlaceholder_eq_any (fields : List (JsonString × TypeDesc)) :
  fieldsHavePlaceholder fields = fields.any fun field => field.2.hasPlaceholder
  := by
  induction fields with
  | nil => rfl
  | cons field fields ih => rw [fieldsHavePlaceholder, ih, List.any_cons]

end TypeDesc

namespace Header

/-- A type has no placeholder in it, as long as there are no warnings. -/
def TypeProperty.warned : TypeProperty where
  holds ws type := type.hasPlaceholder → ws ≠ []
  mono := by
    intro ws ws' type hws h hplaceholder hempty
    rw [hempty] at hws
    exact h hplaceholder (List.prefix_nil.mp hws)
  placeholder hws _ := hws
  scalar _ _ := by
    intro h
    contradiction
  bytes _ _ hlength := by
    intro h
    exact absurd (beq_iff_eq.mp h) hlength
  m256i _ := by
    intro h
    contradiction
  array _ _ h := h
  struct h := by
    rw [TypeDesc.hasPlaceholder, TypeDesc.fieldsHavePlaceholder_eq_any, List.any_eq_true]
    rintro ⟨field, hfield, hplaceholder⟩
    exact (h field hfield).2 hplaceholder

theorem TypeProperty.Side.hasPlaceholder_eq_false {side : TypeDesc}
    (h : TypeProperty.warned.Side [] side) :
  side.hasPlaceholder = false
  := by
  rcases h with ⟨size, rfl⟩ | h
  · rfl
  · rw [Bool.eq_false_iff]
    intro hplaceholder
    exact h hplaceholder rfl

/-- No placeholder is given without a warning.  A compiled document without warnings has none in
its entries.  If a resolver has answered one of any sequence of calls with a type that has a
placeholder in it, or remembers such a type, then it has given a warning. -/
theorem placeholder_warned :
  (∀ (options : CompileOptions) (seed : Table Int) (header : Text) (d : Document TypeDesc),
    compile options seed header = .ok d → d.warnings = [] →
    ∀ e ∈ d.entries, e.input.hasPlaceholder = false ∧ e.output.hasPlaceholder = false) ∧
  ∀ (scope : Scope) (calls : List Call) (type : TypeDesc), type.hasPlaceholder →
    (.ok (some type) ∈ (scope.answers calls .start).1 ∨
      ∃ name, (scope.answers calls .start).2.memo.entries.get? name = some type) →
    (scope.answers calls .start).2.warnings ≠ []
  := by
  constructor
  · intro options seed header d h hwarnings e he
    obtain ⟨hinput, houtput⟩ := TypeProperty.warned.sides_of_compile_eq_ok h e he
    rw [hwarnings] at hinput houtput
    exact ⟨hinput.hasPlaceholder_eq_false, houtput.hasPlaceholder_eq_false⟩
  · intro scope calls type hplaceholder hgiven
    obtain ⟨hknown, hanswers⟩ := scope.keeps_answers (@TypeProperty.Known.start .warned) calls
    rcases hgiven with hanswer | ⟨name, hget⟩
    · exact hanswers type hanswer hplaceholder
    · exact (hknown name type hget).2 hplaceholder

/-- A struct with a placeholder, which is given a second time without another warning. -/
theorem placeholder_warned_again :
  let header := "struct F_input \x7b uint8 a; Array<id, 0> b; \x7d;\n".toList ++
    "REGISTER_USER_FUNCTION(F, 1);".toList
  let scope : Scope := ⟨"struct P \x7b Lost a; \x7d;".toList, [], []⟩
  let calls : List Call := [.struct "P", .struct "P"]
  let type : TypeDesc := .struct [("a", .placeholder)]
  (∃ d, compile sampleOptions [] header = .ok d ∧ d.warnings = [] ∧
    ∀ e ∈ d.entries, e.input.hasPlaceholder = false ∧ e.output.hasPlaceholder = false) ∧
  (scope.answers calls .start).1 = [.ok (some type), .ok (some type)] ∧
  (scope.answers calls .start).2.warnings = ["Unknown type: Lost (treated as bytes[0])"] ∧
  (scope.answers calls .start).2.warnings ≠ []
  := by
  intro header scope calls type
  obtain ⟨d, hd, hwarnings⟩ : ∃ d, compile sampleOptions [] header = .ok d ∧ d.warnings = [] := by
    apply map_eq_ok_iff.mp
    decide +kernel
  have hanswers : (scope.answers calls .start).1 = [.ok (some type), .ok (some type)] := by
    decide +kernel
  have hgiven : .ok (some type) ∈ (scope.answers calls .start).1 := by
    rw [hanswers]
    exact List.mem_cons_self
  exact ⟨⟨d, hd, hwarnings, placeholder_warned.1 _ _ _ d hd hwarnings⟩, hanswers,
    by decide +kernel, placeholder_warned.2 scope calls type rfl (.inl hgiven)⟩

end Header

end ContractInterface
