import ContractInterface.Proofs.Text.Collapse
import Mathlib.Data.List.Infix

/-!
# What is left of a text

A text is thinned by taking parts out of it, so that a blank stands where a part has been taken
out, or nothing at all behind it (`Thinned`).  So what is taken out never brings two characters
together that are not blank: a solid piece of the thinned text is a piece of the text it comes
from, and two of them stand there in the same order.

A remnant of a text is what is left of a part of it.  Collapsing a text, trimming it and cutting a
piece out of it leave remnants, and a remnant of a remnant is one.
-/

namespace ContractInterface.Text

/-- The first text is left of the second one: where something has been taken out, a blank
follows, if anything. -/
inductive Thinned : Text → Text → Prop
  | done (s : Text) : Thinned [] s
  | keep (c : Char) {u t : Text} (h : Thinned u t) : Thinned (c :: u) (c :: t)
  | blank {c : Char} (hc : isBlank c) {s : Text} (hs : s ≠ []) {u t : Text} (h : Thinned u t) :
    Thinned (c :: u) (s ++ t)

namespace Thinned

variable {s t u v w : Text}

theorem refl (t : Text) : Thinned t t := by
  induction t with
  | nil => exact .done []
  | cons c t ih => exact .keep c ih

theorem append_left (h : Thinned u t) (front : Text) :
  Thinned (front ++ u) (front ++ t)
  := by
  induction front with
  | nil => exact h
  | cons c front ih => exact .keep c ih

theorem append_right (h : Thinned u t) (back : Text) :
  Thinned u (t ++ back)
  := by
  induction h with
  | done s => exact .done _
  | keep c h ih => exact .keep c ih
  | blank hc hs h ih =>
      rw [List.append_assoc]
      exact .blank hc hs ih

theorem length_le (h : Thinned u t) :
  u.length ≤ t.length
  := by
  induction h with
  | done s => exact Nat.zero_le _
  | keep c h ih => simpa using ih
  | blank hc hs h ih =>
      have hpos := List.length_pos_iff.mpr hs
      rw [List.length_cons, List.length_append]
      omega

/-- The parts of a thinned text are left of parts of the text. -/
theorem exists_append (h : Thinned (u ++ v) t) :
  ∃ t₁ t₂, t = t₁ ++ t₂ ∧ Thinned u t₁ ∧ Thinned v t₂
  := by
  induction u generalizing t with
  | nil => exact ⟨[], t, rfl, .done [], h⟩
  | cons c u ih =>
      rw [List.cons_append] at h
      cases h with
      | keep _ h =>
          obtain ⟨t₁, t₂, rfl, hu, hv⟩ := ih h
          exact ⟨c :: t₁, t₂, rfl, .keep c hu, hv⟩
      | @blank _ hc s hs _ _ h =>
          obtain ⟨t₁, t₂, rfl, hu, hv⟩ := ih h
          exact ⟨s ++ t₁, t₂, by rw [List.append_assoc], .blank hc hs hu, hv⟩

theorem trans (h : Thinned u t) (h' : Thinned t s) :
  Thinned u s
  := by
  induction h generalizing s with
  | done _ => exact .done s
  | keep c h ih =>
      cases h' with
      | keep _ h' => exact .keep c (ih h')
      | blank hc hs h' => exact .blank hc hs (ih h')
  | blank hc hs h ih =>
      obtain ⟨s₁, s₂, rfl, hs₁, hs₂⟩ := exists_append h'
      refine .blank hc ?_ (ih hs₂)
      have hpos := List.length_pos_iff.mpr hs
      exact List.ne_nil_of_length_pos (Nat.lt_of_lt_of_le hpos hs₁.length_le)

/-- A solid beginning of a thinned text is a beginning of the text. -/
theorem of_solid (hw : ∀ c ∈ w, isBlank c = false) (h : Thinned (w ++ u) t) :
  ∃ t', t = w ++ t' ∧ Thinned u t'
  := by
  induction w generalizing t with
  | nil => exact ⟨t, rfl, h⟩
  | cons c w ih =>
      obtain ⟨hc, hw⟩ := List.forall_mem_cons.mp hw
      rw [List.cons_append] at h
      cases h with
      | keep _ h =>
          obtain ⟨t', rfl, hrest⟩ := ih hw h
          exact ⟨t', rfl, hrest⟩
      | blank hblank _ _ => simp [hc] at hblank

end Thinned

theorem thinned_squeeze (t : Text) :
  Thinned (squeeze t) t
  := by
  -- by induction on the length, since a run of blanks is passed over as a whole
  induction hn : t.length using Nat.strongRecOn generalizing t with
  | ind n ih =>
      cases t with
      | nil => exact .done []
      | cons c t =>
          rw [List.length_cons] at hn
          by_cases hc : isBlank c
          · have hlength := List.length_dropWhile_le isBlank t
            have hrest := ih (trimLeft t).length (by rw [trimLeft]; omega) (trimLeft t) rfl
            have hthinned := Thinned.blank (c := ' ') rfl
              (List.cons_ne_nil c (t.takeWhile isBlank)) hrest
            rw [squeeze_cons_blank hc, trimLeft_squeeze]
            rwa [List.cons_append, trimLeft, List.takeWhile_append_dropWhile] at hthinned
          · rw [squeeze_cons_solid (by simpa using hc)]
            exact .keep c (ih t.length (by omega) t rfl)

/-! ### Remnants -/

/-- The first text is left of a part of the second one. -/
def Remnant (u t : Text) : Prop :=
  ∃ t', t' <:+ t ∧ Thinned u t'

theorem Thinned.remnant {u t : Text} (h : Thinned u t) : Remnant u t :=
  ⟨t, List.suffix_rfl, h⟩

namespace Remnant

variable {s t u v w : Text}

theorem of_isInfix (h : u <:+: t) : Remnant u t := by
  obtain ⟨front, back, rfl⟩ := h
  refine ⟨u ++ back, ?_, (Thinned.refl u).append_right back⟩
  rw [List.append_assoc]
  apply List.suffix_append

theorem refl (t : Text) : Remnant t t :=
  (Thinned.refl t).remnant

theorem trans (h : Remnant u t) (h' : Remnant t s) :
  Remnant u s
  := by
  obtain ⟨t', ⟨front, rfl⟩, h⟩ := h
  obtain ⟨s', hsuffix, h'⟩ := h'
  obtain ⟨s₁, s₂, rfl, -, hs₂⟩ := h'.exists_append
  exact ⟨s₂, (List.suffix_append s₁ s₂).trans hsuffix, h.trans hs₂⟩

theorem length_le (h : Remnant u t) :
  u.length ≤ t.length
  := by
  obtain ⟨t', hsuffix, h⟩ := h
  exact Nat.le_trans h.length_le hsuffix.length_le

/-- The end of a remnant that follows a solid piece is left of what follows this piece in the
text. -/
theorem of_solid (hw : ∀ c ∈ w, isBlank c = false) (h : Remnant (v ++ (w ++ u)) t) :
  ∃ t', w ++ t' <:+ t ∧ Remnant u t'
  := by
  obtain ⟨whole, hsuffix, hthinned⟩ := h
  obtain ⟨t₁, t₂, rfl, -, hback⟩ := hthinned.exists_append
  obtain ⟨t', rfl, hrest⟩ := hback.of_solid hw
  exact ⟨t', (List.suffix_append t₁ _).trans hsuffix, hrest.remnant⟩

theorem infix_of_solid (hw : ∀ c ∈ w, isBlank c = false) (h : Remnant u t) (hu : w <:+: u) :
  w <:+: t
  := by
  obtain ⟨front, back, rfl⟩ := hu
  rw [List.append_assoc] at h
  obtain ⟨t', hsuffix, -⟩ := h.of_solid hw
  exact (List.prefix_append w t').isInfix.trans hsuffix.isInfix

end Remnant

theorem infix_trim (t : Text) :
  trim t <:+: t
  := by
  have hright : trimRight (trimLeft t) <+: trimLeft t := List.rdropWhile_prefix isBlank _
  exact hright.isInfix.trans (List.dropWhile_suffix isBlank).isInfix

theorem remnant_collapse (t : Text) :
  Remnant (collapse t) t
  := by
  rw [← trim_squeeze]
  exact (Remnant.of_isInfix (infix_trim _)).trans (thinned_squeeze t).remnant

end ContractInterface.Text
