import ContractInterface.Proofs.Header.Comment
import ContractInterface.Proofs.Text.Remnant

/-!
# Texts without comments

In a text without comments there are no two slashes in a row, and no block that is opened is closed
later on.  Removing the comments of a text leaves such a text: a block leaves a space behind, and a
line comment ends where its line does, so no two characters of a mark are brought together.  In
particular removing the comments again changes nothing.

A remnant of a text without comments has none either.  For a mark is solid, so the marks of the
remnant stand in the text, and they stand there in the same order.
-/

namespace ContractInterface.Header

open Text

/-! ### What removing comments leaves -/

theorem thinned_dropBlocks (t : Text) :
  Thinned (dropBlocks false t) t
  := by
  induction t using block_induction with
  | nil => exact .done []
  | block u body rest hcut ih =>
      have hthinned := Thinned.blank (c := ' ') rfl (s := '/' :: '*' :: body ++ ['*', '/'])
        (List.cons_ne_nil _ _) ih
      rw [dropBlocks_block hcut, eq_append_of_cutBlock? hcut]
      simpa using hthinned
  | plain c t hopen ih =>
      rw [dropBlocks_cons hopen]
      exact .keep c ih

/-- Inside a line comment, what has been passed over is dropped too. -/
theorem thinned_dropLineComments (inside : Bool) (t : Text) :
  ∀ passed, (inside = false → passed = []) → Thinned (dropLineComments inside t) (passed ++ t)
  := by
  fun_induction dropLineComments inside t with
  | case1 inside =>
      intro passed _
      exact .done _
  | case2 t ih =>
      intro passed _
      have hthinned := Thinned.blank (c := '\n') rfl (s := passed ++ ['\n']) (by simp)
        (ih [] fun _ => rfl)
      simpa using hthinned
  | case3 c t hc ih =>
      intro passed _
      simpa using ih (passed ++ [c]) (by simp)
  | case4 t ih =>
      intro passed hpassed
      rw [hpassed rfl]
      exact ih ['/', '/'] (by simp)
  | case5 c t hc ih =>
      intro passed hpassed
      rw [hpassed rfl]
      exact .keep c (ih [] fun _ => rfl)

theorem thinned_stripComments (t : Text) :
  Thinned (stripComments t) t
  := (thinned_dropLineComments false _ [] fun _ => rfl).trans (thinned_dropBlocks t)

theorem head?_of_dropLineComments {t : Text} (h : (dropLineComments false t).head? = some '/') :
  t.head? = some '/'
  := by
  cases t with
  | nil => contradiction
  | cons c t =>
      by_cases hc : c = '/'
      · rw [hc]
        rfl
      · rw [dropLineComments] at h
        · exact h
        · intro u hslash
          contradiction

/-- A slash that stays is not followed by another one, neither in the text nor in what is left. -/
theorem not_infix_dropLineComments (inside : Bool) (t : Text) :
  ¬['/', '/'] <:+: dropLineComments inside t
  := by
  fun_induction dropLineComments inside t with
  | case1 inside => simp
  | case2 t ih => simpa [List.infix_cons_iff] using ih
  | case3 c t hc ih => exact ih
  | case4 t ih => exact ih
  | case5 c t hc ih =>
      intro hmark
      rcases List.infix_cons_iff.mp hmark with ⟨rest, hrest⟩ | htail
      · obtain ⟨hslash, hnext⟩ := List.cons.inj hrest
        have hhead : t.head? = some '/' := by
          apply head?_of_dropLineComments
          rw [← hnext]
          rfl
        obtain ⟨u, rfl⟩ := List.head?_eq_some_iff.mp hhead
        exact hc u hslash.symm rfl
      · exact ih htail

theorem head?_of_dropBlocks {t : Text} (h : (dropBlocks false t).head? = some '*') :
  t.head? = some '*'
  := by
  rw [← h]
  symm
  apply head?_dropBlocks
  intro hslash
  obtain ⟨u, rfl⟩ := List.head?_eq_some_iff.mp hslash
  by_cases hopen : OpensBlock ('/' :: u)
  · obtain ⟨v, body, rest, heq, hcut⟩ := opensBlock_iff.mp hopen
    rw [heq, dropBlocks_block hcut] at h
    simp at h
  · rw [dropBlocks_cons hopen] at h
    simp at h

/-- Behind a block that is opened and never closed, no mark arises that closes it. -/
theorem not_opensBlock_dropBlocks (t : Text) :
  ¬OpensBlock (dropBlocks false t)
  := by
  cases t with
  | nil => simp [dropBlocks, OpensBlock]
  | cons c t =>
      by_cases hopen : OpensBlock (c :: t)
      · obtain ⟨u, body, rest, heq, hcut⟩ := opensBlock_iff.mp hopen
        rw [heq, dropBlocks_block hcut]
        rintro ⟨⟨v, hv⟩, -⟩
        simp at hv
      · rw [dropBlocks_cons hopen]
        rintro ⟨⟨v, hv⟩, hclosed⟩
        obtain ⟨rfl, hnext⟩ := List.cons.inj hv
        have hhead : t.head? = some '*' := by
          apply head?_of_dropBlocks
          rw [← hnext]
          rfl
        obtain ⟨u, rfl⟩ := List.head?_eq_some_iff.mp hhead
        have hstar : ¬OpensBlock ('*' :: u) := by
          rintro ⟨⟨w, hw⟩, -⟩
          simp at hw
        rw [dropBlocks_cons hstar] at hclosed
        have hmark : ∀ c ∈ ['*', '/'], isBlank c = false := forall_mem_of_all (by decide)
        apply hopen
        exact ⟨⟨u, rfl⟩, (thinned_dropBlocks u).remnant.infix_of_solid hmark hclosed⟩

theorem exists_of_suffix_dropBlocks {t v : Text} (h : v <:+ dropBlocks false t) :
  ∃ t', v = dropBlocks false t'
  := by
  induction t using block_induction with
  | nil =>
      obtain rfl := List.suffix_nil.mp h
      exact ⟨[], rfl⟩
  | block u body rest hcut ih =>
      have hdrop := dropBlocks_block hcut
      rw [hdrop] at h
      rcases List.suffix_cons_iff.mp h with rfl | h
      · exact ⟨_, hdrop.symm⟩
      · exact ih h
  | plain c t hopen ih =>
      have hdrop := dropBlocks_cons hopen
      rw [hdrop] at h
      rcases List.suffix_cons_iff.mp h with rfl | h
      · exact ⟨_, hdrop.symm⟩
      · exact ih h

/-! ### Texts without comments -/

/-- A text without comments: no slash follows another one, and no block that is opened is closed
later on. -/
structure Uncommented (t : Text) : Prop where
  line : ¬['/', '/'] <:+: t
  block : ∀ v, v <:+ t → ¬OpensBlock v

/-- The marks of a block in a remnant stand in the text, and in the same order. -/
theorem exists_opensBlock {u v t : Text} (h : Remnant u t) (hv : v <:+ u) (hopen : OpensBlock v) :
  ∃ t', t' <:+ t ∧ OpensBlock t'
  := by
  obtain ⟨front, rfl⟩ := hv
  obtain ⟨⟨w, rfl⟩, hclosed⟩ := hopen
  obtain ⟨t', hsuffix, hrest⟩ := h.of_solid (forall_mem_of_all (by decide))
  have hclosed' := hrest.infix_of_solid (forall_mem_of_all (by decide)) hclosed
  exact ⟨_, hsuffix, List.prefix_append _ t', hclosed'⟩

theorem Uncommented.of_remnant {u t : Text} (h : Uncommented t) (hu : Remnant u t) :
  Uncommented u
  where
  line := by
    intro hmark
    exact h.line (hu.infix_of_solid (forall_mem_of_all (by decide)) hmark)
  block := by
    intro v hv hopen
    obtain ⟨t', hsuffix, hopen'⟩ := exists_opensBlock hu hv hopen
    exact h.block t' hsuffix hopen'

theorem uncommented_stripComments (t : Text) :
  Uncommented (stripComments t)
  where
  line := not_infix_dropLineComments false _
  block := by
    intro v hv hopen
    have hremnant := (thinned_dropLineComments false (dropBlocks false t) [] fun _ => rfl).remnant
    obtain ⟨t', hsuffix, hopen'⟩ := exists_opensBlock hremnant hv hopen
    obtain ⟨u, rfl⟩ := exists_of_suffix_dropBlocks hsuffix
    exact not_opensBlock_dropBlocks u hopen'

/-- There is nothing to remove in a text without comments. -/
theorem Uncommented.stripComments_eq {t : Text} (h : Uncommented t) :
  stripComments t = t
  := by
  induction t with
  | nil => rfl
  | cons c t ih =>
      have hnone : Segment.comment? (c :: t) = none := by
        rw [Option.eq_none_iff_forall_not_mem]
        rintro ⟨segment, rest⟩ hsome
        rcases Segment.comment?_cases hsome with ⟨u, heq, -⟩ | ⟨u, body, heq, -, hcut⟩
        · apply h.line
          rw [heq]
          exact (List.prefix_append ['/', '/'] u).isInfix
        · exact h.block _ List.suffix_rfl (opensBlock_iff.mpr ⟨u, body, rest, heq, hcut⟩)
      have htail := h.of_remnant (Remnant.of_isInfix (List.suffix_cons c t).isInfix)
      rw [stripComments_plain hnone, ih htail]

theorem uncommented_iff {t : Text} :
  Uncommented t ↔ stripComments t = t
  := by
  constructor
  · exact Uncommented.stripComments_eq
  · intro h
    rw [← h]
    apply uncommented_stripComments

end ContractInterface.Header
