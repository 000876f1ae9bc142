import ContractInterface.Header.Registration
import ContractInterface.Proofs.Except
import ContractInterface.Proofs.Header.Member

/-!
# Names of registered entries

What a scanner finds is what its matcher gave at some position.  So the entries that a header
registers have identifiers as names.
-/

namespace ContractInterface

namespace Text

variable {α : Type} {m : Matcher α} {t : Text} {a : α}

theorem exists_of_mem_scanFrom {before : Option Char} {skip : Nat}
    (h : a ∈ scanFrom m before skip t) :
  ∃ before' t' rest, t' <:+ t ∧ m before' t' = some (a, rest)
  := by
  have hlater {c : Char} {t : Text}
      (h : ∃ before' t' rest, t' <:+ t ∧ m before' t' = some (a, rest)) :
      ∃ before' t' rest, t' <:+ c :: t ∧ m before' t' = some (a, rest) := by
    obtain ⟨before', t', rest, hsuffix, hmatch⟩ := h
    exact ⟨before', t', rest, hsuffix.trans (List.suffix_cons c t), hmatch⟩
  induction t generalizing before skip with
  | nil =>
      rw [scanFrom] at h
      contradiction
  | cons c t ih =>
      cases skip with
      | succ skip =>
          rw [scanFrom] at h
          exact hlater (ih h)
      | zero =>
          rw [scanFrom] at h
          split at h
          · rename_i b rest hmatch
            rcases List.mem_cons.mp h with rfl | h
            · exact ⟨before, c :: t, rest, List.suffix_rfl, hmatch⟩
            · exact hlater (ih h)
          · exact hlater (ih h)

/-- Every match in a text is one at some position. -/
theorem exists_of_mem_scan (h : a ∈ scan m t) :
  ∃ before t' rest, t' <:+ t ∧ m before t' = some (a, rest)
  := exists_of_mem_scanFrom h

end Text

namespace Registration

theorem isIdent_of_matcher {kind : EntryKind} {before : Option Char}
    {t name digits rest : Text} (h : matcher kind before t = some ((name, digits), rest)) :
  Text.isIdent name
  := by
  simp only [matcher, Option.bind_eq_bind, Option.bind_eq_some_iff] at h
  obtain ⟨_, -, _, -, ⟨ident, _⟩, hident, _, -, h⟩ := h
  split at h
  · contradiction
  · simp only [Option.bind_eq_some_iff, Option.some.injEq, Prod.mk.injEq] at h
    obtain ⟨_, -, _, -, ⟨rfl, -⟩, -⟩ := h
    apply Text.isIdent_of_takeIdent? hident

theorem isIdent_of_mem_ofKind {kind : EntryKind} {source : Text} {rs : List Registration}
    (h : ofKind kind source = .ok rs) :
  ∀ r ∈ rs, Text.isIdent r.name.toList
  := by
  intro r hr
  obtain ⟨⟨name, digits⟩, hfound, hr⟩ := exists_of_mem_mapM h r hr
  obtain ⟨number, -, hr⟩ := bind_eq_ok_iff.mp hr
  obtain rfl := Except.ok.inj hr
  obtain ⟨before, t, rest, -, hmatch⟩ := Text.exists_of_mem_scan hfound
  rw [String.toList_ofList]
  apply isIdent_of_matcher hmatch

/-- The entries that a header registers have identifiers as names. -/
theorem isIdent_of_mem_all {source : Text} {rs : List Registration} (h : all source = .ok rs) :
  ∀ r ∈ rs, Text.isIdent r.name.toList
  := by
  obtain ⟨functions, hfunctions, h⟩ := bind_eq_ok_iff.mp h
  obtain ⟨procedures, hprocedures, h⟩ := bind_eq_ok_iff.mp h
  obtain rfl := Except.ok.inj h
  intro r hr
  rcases List.mem_append.mp hr with hr | hr
  · apply isIdent_of_mem_ofKind hfunctions r hr
  · apply isIdent_of_mem_ofKind hprocedures r hr

end Registration

end ContractInterface
