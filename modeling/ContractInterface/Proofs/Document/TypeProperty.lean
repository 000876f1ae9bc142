import ContractInterface.Proofs.Document.Agreement
import ContractInterface.Proofs.Resolution.Transparency

/-!
# Properties of all types that are given

A `TypeProperty` is kept by one call of a resolver, so it holds of every answer to a sequence of
calls, and of every struct that the resolver remembers.  Likewise it is kept by the compilation of
an entry, so it holds of every side of a compiled document, unless the side is one without data.
-/

namespace ContractInterface.Header

open Resolution

variable {P : TypeProperty} {s : ResolverState}

/-! ### Answers -/

/-- A type that a call is answered with has the property. -/
theorem Call.keeps_answer (hs : P.Known s) (scope : Scope) (call : Call) :
  Keeps P s (call.answer scope) fun ws found => ∀ type, found = some type → P.holds ws type
  := by
  cases call with
  | type declared =>
      apply Keeps.bind (resolves_resolveWithin P scope _ s declared hs)
      intro type s' _ hs' htype
      apply Keeps.pure hs'
      rintro _ ⟨⟩
      exact htype
  | struct name =>
      obtain ⟨hadvances, hknown, hresult⟩ :=
        keeps_resolveStructWith (resolves_resolveWithin P scope (scope.depth 0)) hs name
      exact ⟨hadvances, hknown, fun found hfound type htype => (hresult found hfound type htype).1⟩
  | fields body =>
      apply Keeps.bind (keeps_resolveBody (resolves_resolveWithin P scope _) hs body)
      rintro _ s' _ hs' ⟨fields, rfl, hfields⟩
      apply Keeps.pure hs'
      rintro _ ⟨⟩
      apply P.struct hfields

/-- What a sequence of calls is answered with, and what is remembered then, has the property. -/
theorem Scope.keeps_answers (hs : P.Known s) (scope : Scope) (calls : List Call) :
  P.Known (scope.answers calls s).2 ∧
    ∀ type, .ok (some type) ∈ (scope.answers calls s).1 →
      P.holds (scope.answers calls s).2.warnings type
  := by
  induction calls generalizing s with
  | nil =>
      refine ⟨hs, ?_⟩
      intro type htype
      contradiction
  | cons call calls ih =>
      obtain ⟨-, hknown, hresult⟩ := call.keeps_answer hs scope
      obtain ⟨hknown', hanswers⟩ := ih hknown
      refine ⟨hknown', ?_⟩
      intro type htype
      rcases List.mem_cons.mp htype with hfirst | hlater
      · -- later calls only add warnings
        apply P.mono (scope.advances_answers calls _).warnings
        apply hresult (some type) hfirst.symm type rfl
      · apply hanswers type hlater

/-! ### Sides -/

/-- A side without data, or one with the property. -/
def TypeProperty.Side (P : TypeProperty) (ws : List String) (side : TypeDesc) : Prop :=
  (∃ size, side = .nodata size) ∨ P.holds ws side

/-- Both sides of an entry are without data or have the property. -/
def TypeProperty.Sides (P : TypeProperty) (ws : List String) (e : Entry TypeDesc) : Prop :=
  P.Side ws e.input ∧ P.Side ws e.output

theorem TypeProperty.Side.mono {ws ws' : List String} {side : TypeDesc} (h : P.Side ws side)
    (hws : ws <+: ws') :
  P.Side ws' side
  := h.imp_right (P.mono hws)

theorem TypeProperty.Sides.mono {ws ws' : List String} {e : Entry TypeDesc} (h : P.Sides ws e)
    (hws : ws <+: ws') :
  P.Sides ws' e
  := ⟨h.1.mono hws, h.2.mono hws⟩

theorem TypeProperty.side_describeSide {ws : List String} {type : TypeDesc} (h : P.Side ws type) :
  P.Side ws (describeSide type)
  := by
  unfold describeSide
  split
  · exact .inl ⟨_, rfl⟩
  · exact .inl ⟨_, rfl⟩
  · exact h

theorem TypeProperty.keeps_resolveSide (hs : P.Known s) (scope : Scope) (name : String) :
  Keeps P s (resolveSide scope name) fun ws side => P.Side ws side.1
  := by
  apply Keeps.bind (keeps_resolveStructWith (resolves_resolveWithin P scope _) hs name)
  intro found s' _ hs' hfound
  apply Keeps.bind (Keeps.ofNumeral hs' _)
  intro _ s'' hadvances hs'' _
  apply Keeps.pure hs''
  apply TypeProperty.side_describeSide
  cases found with
  | none => exact .inl ⟨none, rfl⟩
  | some type => exact .inr (P.mono hadvances.warnings (hfound type rfl).1)

theorem TypeProperty.keeps_compileEntry (hs : P.Known s) (scope : Scope) (r : Registration) :
  Keeps P s (compileEntry scope r) P.Sides
  := by
  apply Keeps.bind (TypeProperty.keeps_resolveSide hs scope _)
  rintro ⟨input, inputSize⟩ s' _ hs' hinput
  apply Keeps.bind (TypeProperty.keeps_resolveSide hs' scope _)
  rintro ⟨output, outputSize⟩ s'' hadvances hs'' houtput
  apply Keeps.bind (Keeps.ofNumeral hs'' _)
  intro _ s₃ hadvances₃ hs₃ _
  apply Keeps.bind (Keeps.ofNumeral hs₃ _)
  intro _ s₄ hadvances₄ hs₄ _
  have hlast := hadvances₃.trans hadvances₄
  apply Keeps.pure hs₄
  exact ⟨hinput.mono (hadvances.trans hlast).warnings, houtput.mono hlast.warnings⟩

theorem TypeProperty.keeps_compileEntries (hs : P.Known s) (scope : Scope)
    (rs : List Registration) :
  Keeps P s (compileEntries scope rs) fun ws es => ∀ e ∈ es, P.Sides ws e
  := by
  induction rs generalizing s with
  | nil =>
      apply Keeps.pure hs
      intro e he
      contradiction
  | cons r rs ih =>
      apply Keeps.bind (TypeProperty.keeps_compileEntry hs scope r)
      intro e s' _ hs' he
      apply Keeps.bind (ih hs')
      intro es s'' hadvances hs'' hes
      apply Keeps.pure hs''
      exact List.forall_mem_cons.mpr ⟨he.mono hadvances.warnings, hes⟩

/-! ### Documents -/

/-- The warnings of a compiled document are those of the resolver that its entries share. -/
theorem warnings_of_compile {options : CompileOptions} {seed : Table Int} {header : Text}
    {d : Document TypeDesc} {o : Outline} (h : compile options seed header = .ok d)
    (ho : outline seed header = .ok o) :
  d.warnings = ((compileEntries o.scope o.registrations).outcome .start).2.warnings
  := by
  rw [compile, ho] at h
  obtain ⟨o', ho', h⟩ := bind_eq_ok_iff.mp h
  obtain rfl : o = o' := Except.ok.inj ho'
  obtain ⟨⟨d', memo⟩, hd', h⟩ := bind_eq_ok_iff.mp h
  obtain rfl := Except.ok.inj h
  obtain ⟨es, hes, hd'⟩ := bind_eq_ok_iff.mp hd'
  obtain ⟨rfl, -⟩ := Prod.mk.inj (Except.ok.inj hd')
  rfl

/-- The sides of a compiled document are without data or have the property. -/
theorem TypeProperty.sides_of_compile_eq_ok (P : TypeProperty) {options : CompileOptions}
    {seed : Table Int} {header : Text} {d : Document TypeDesc}
    (h : compile options seed header = .ok d) :
  ∀ e ∈ d.entries, P.Sides d.warnings e
  := by
  obtain ⟨-, -, o, es, ho, hes, hentries⟩ := exists_of_compile_eq_ok h
  have hkeeps := P.keeps_compileEntries .start o.scope o.registrations
  intro e he
  rw [hentries, List.mem_mergeSort] at he
  rw [warnings_of_compile h ho]
  apply hkeeps.result es hes e he

end ContractInterface.Header
