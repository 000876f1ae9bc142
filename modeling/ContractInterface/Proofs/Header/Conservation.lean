import ContractInterface.Proofs.Header.Boundary

/-!
# What becomes of the characters of a body

Dividing a body into statements takes out the semicolons outside braces, and nothing else.  The
statements, one after the other, are the body without these semicolons, up to blanks, and in no
statement is such a semicolon left.

While a body is divided, the braces open in the statement so far are those that are open in the
body, and no semicolon of the statement stands outside them (`Begun`).  A method that ends at its
closing brace leaves no brace open, so the next statement begins as the first one does.
-/

namespace ContractInterface.Header

open Text

/-! ### Semicolons outside braces -/

/-- A text without its semicolons outside braces, given the number of braces that are open before
it. -/
def withoutEnds : Nat → Text → Text
  | _, [] => []
  | depth, c :: t =>
    if c = ';' ∧ depth = 0 then withoutEnds 0 t else c :: withoutEnds (openBraces depth [c]) t

/-- In front of every semicolon of a text there is an open brace, given the number of braces that
are open before the text. -/
def Sealed (depth : Nat) (t : Text) : Prop :=
  ∀ front back, t = front ++ ';' :: back → 0 < openBraces depth front

theorem withoutEnds_cons {depth : Nat} {c : Char} (h : ¬(c = ';' ∧ depth = 0)) (t : Text) :
  withoutEnds depth (c :: t) = c :: withoutEnds (openBraces depth [c]) t
  := by
  rw [withoutEnds, if_neg h]

theorem openBraces_blank {c : Char} (h : isBlank c) (depth : Nat) :
  openBraces depth [c] = depth
  := by
  apply openBraces_plain
  all_goals
    rintro rfl
    contradiction

namespace Sealed

variable {depth : Nat} {c : Char} {t : Text}

theorem nil : Sealed depth [] := by
  intro front back h
  simp at h

theorem cons_iff :
  Sealed depth (c :: t) ↔ (c = ';' → 0 < depth) ∧ Sealed (openBraces depth [c]) t
  := by
  constructor
  · intro h
    constructor
    · rintro rfl
      apply h [] t rfl
    · rintro front back rfl
      rw [← openBraces_cons]
      apply h (c :: front) back rfl
  · rintro ⟨hhead, htail⟩ front back heq
    cases front with
    | nil => exact hhead (List.cons.inj heq).1
    | cons d front =>
        obtain ⟨rfl, rfl⟩ := List.cons.inj heq
        rw [openBraces_cons]
        apply htail front back rfl

theorem append_iff {s : Text} :
  Sealed depth (s ++ t) ↔ Sealed depth s ∧ Sealed (openBraces depth s) t
  := by
  induction s generalizing depth with
  | nil => simp [nil, openBraces]
  | cons c s ih => rw [List.cons_append, cons_iff, cons_iff, ih, ← openBraces_cons, and_assoc]

/-- Blanks do not matter. -/
theorem withoutBlanks_iff :
  Sealed depth (withoutBlanks t) ↔ Sealed depth t
  := by
  induction t generalizing depth with
  | nil => exact Iff.rfl
  | cons c t ih =>
      rw [withoutBlanks, List.filter_cons]
      split
      · rw [cons_iff, cons_iff, ← ih, withoutBlanks]
      · rename_i hc
        have hblank : isBlank c := by simpa using hc
        have hsemicolon : c ≠ ';' := by
          rintro rfl
          contradiction
        rw [cons_iff, openBraces_blank hblank, ← ih, withoutBlanks]
        simp [hsemicolon]

theorem collapse (h : Sealed depth t) :
  Sealed depth (collapse t)
  := by
  rwa [← withoutBlanks_iff, withoutBlanks_collapse, withoutBlanks_iff]

end Sealed

/-! ### Dividing a body -/

/-- A statement so far, with the number of braces that are open in it, in which no semicolon
stands outside braces. -/
structure Begun (depth : Nat) (current : Text) : Prop where
  braces : openBraces 0 current.reverse = depth
  inside : Sealed 0 current.reverse

namespace Begun

variable {depth : Nat} {current : Text}

theorem nil : Begun 0 [] where
  braces := rfl
  inside := Sealed.nil

theorem cons (h : Begun depth current) {c : Char} (hc : ¬(c = ';' ∧ depth = 0)) :
  Begun (openBraces depth [c]) (c :: current)
  where
  braces := by rw [List.reverse_cons, openBraces_append, h.braces]
  inside := by
    rw [List.reverse_cons, Sealed.append_iff, h.braces, Sealed.cons_iff]
    refine ⟨h.inside, ?_, Sealed.nil⟩
    rintro rfl
    exact Nat.pos_of_ne_zero fun hdepth => hc ⟨rfl, hdepth⟩

end Begun

theorem sealed_of_mem_splitFrom {depth : Nat} {current t : Text} (h : Begun depth current) :
  ∀ s ∈ splitFrom depth current t, Sealed 0 s
  := by
  fun_induction splitFrom depth current t with
  | case1 depth current => simpa using h.inside
  | case2 depth current c t hend ih => exact List.forall_mem_cons.mpr ⟨h.inside, ih Begun.nil⟩
  | case3 depth current t hend ih => exact ih (h.cons (c := '{') (by simp))
  | case4 depth current t hend hopen hmethod ih =>
      exact List.forall_mem_cons.mpr ⟨(h.cons (by simp)).inside, ih Begun.nil⟩
  | case5 depth current t hend hopen hmethod ih => exact ih (h.cons (c := '}') (by simp))
  | case6 depth current c t hend hopen hclose ih =>
      have hnext := h.cons (c := c) (by simpa using hend)
      rw [openBraces_plain hopen hclose] at hnext
      exact ih hnext

/-- Dividing a text takes out the semicolons outside braces. -/
theorem flatten_splitFrom (depth : Nat) (current t : Text) :
  (splitFrom depth current t).flatten = current.reverse ++ withoutEnds depth t
  := by
  fun_induction splitFrom depth current t with
  | case1 depth current => simp [withoutEnds]
  | case2 depth current c t hend ih =>
      rw [withoutEnds, if_pos (by simpa using hend), List.flatten_cons, ih]
      rfl
  | case3 depth current t hend ih =>
      rw [ih, withoutEnds_cons (by simp), List.reverse_cons, List.append_assoc]
      rfl
  | case4 depth current t hend hopen hmethod ih =>
      have hdepth : openBraces depth ['}'] = 0 :=
        of_decide_eq_true (Bool.and_eq_true_iff.mp hmethod).1
      rw [withoutEnds_cons (by simp), hdepth, List.flatten_cons, ih, List.reverse_cons,
        List.append_assoc]
      rfl
  | case5 depth current t hend hopen hmethod ih =>
      rw [ih, withoutEnds_cons (by simp), List.reverse_cons, List.append_assoc]
      rfl
  | case6 depth current c t hend hopen hclose ih =>
      rw [ih, withoutEnds_cons (by simpa using hend), openBraces_plain hopen hclose,
        List.reverse_cons, List.append_assoc]
      rfl

/-! ### The statements of a body -/

theorem withoutBlanks_flatten_statements (body : Text) :
  withoutBlanks (statements body).flatten =
    withoutBlanks (withoutEnds 0 (blankDirectives (stripComments body)))
  := by
  have hcollapse (pieces : List Text) :
      withoutBlanks (pieces.map Text.collapse).flatten = withoutBlanks pieces.flatten := by
    simp only [withoutBlanks, List.filter_flatten, List.map_map]
    congr 2
    funext piece
    apply withoutBlanks_collapse
  rw [statements, List.flatten_filter_not_isEmpty, hcollapse, flatten_splitFrom]
  rfl

/-- The statements of a body are its text, without comments, directives, blanks and the semicolons
outside braces.  Every statement is a text of words with single spaces, and every semicolon of it
stands inside of its own braces. -/
theorem statements_conserve (body : Text) :
  let t := blankDirectives (stripComments body)
  withoutBlanks (statements body).flatten = withoutBlanks (withoutEnds 0 t) ∧
  ∀ s ∈ statements body, s ≠ [] ∧ Collapsed s ∧ Sealed 0 s
  := by
  refine ⟨withoutBlanks_flatten_statements body, ?_⟩
  intro s hs
  obtain ⟨hmem, hne⟩ := List.mem_filter.mp hs
  obtain ⟨piece, hpiece, rfl⟩ := List.mem_map.mp hmem
  have hsealed := sealed_of_mem_splitFrom Begun.nil piece hpiece
  exact ⟨by simpa using hne, collapsed_collapse piece, hsealed.collapse⟩

/-- A brace that closes nothing, a method and a nested type. -/
theorem statements_conserve_strayBrace :
  let body := "\x7d id a; void f() \x7b g(); \x7d struct S \x7b id b; \x7d;".toList
  statements body =
    ["\x7d id a".toList, "void f() \x7b g(); \x7d".toList, "struct S \x7b id b; \x7d".toList] ∧
  withoutBlanks (statements body).flatten =
    withoutBlanks (withoutEnds 0 (blankDirectives (stripComments body))) ∧
  ∀ s ∈ statements body, s ≠ [] ∧ Collapsed s ∧ Sealed 0 s
  := by
  refine ⟨by decide +kernel, ?_⟩
  apply statements_conserve

end ContractInterface.Header
