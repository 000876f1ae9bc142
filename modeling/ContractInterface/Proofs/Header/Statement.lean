import ContractInterface.Header.Statement
import ContractInterface.Proofs.Text.Collapse

/-!
# The statements of a body

A text without slashes has no comments, and one without number signs no directives.  The
statements of a body are the pieces between its semicolons, if there are no braces.
-/

namespace ContractInterface.Header

/-! ### Comments -/

theorem dropBlocks_of_not_mem {t : Text} (h : '/' ∉ t) :
  dropBlocks false t = t
  := by
  induction t with
  | nil => rfl
  | cons c t ih =>
      obtain ⟨hc, ht⟩ : '/' ≠ c ∧ '/' ∉ t := by simpa using h
      rw [dropBlocks, ih ht]
      intro t' hslash
      exact absurd hslash.symm hc

theorem dropLineComments_of_not_mem {t : Text} (h : '/' ∉ t) :
  dropLineComments false t = t
  := by
  induction t with
  | nil => rfl
  | cons c t ih =>
      obtain ⟨hc, ht⟩ : '/' ≠ c ∧ '/' ∉ t := by simpa using h
      rw [dropLineComments, ih ht]
      intro t' hslash
      exact absurd hslash.symm hc

theorem stripComments_of_not_mem {t : Text} (h : '/' ∉ t) :
  stripComments t = t
  := by
  rw [stripComments, dropBlocks_of_not_mem h, dropLineComments_of_not_mem h]

/-- Removing line comments brings nothing in. -/
theorem dropLineComments_sublist (inside : Bool) (t : Text) :
  (dropLineComments inside t).Sublist t
  := by
  fun_induction dropLineComments inside t with
  | case1 => exact List.Sublist.slnil
  | case2 t ih => exact ih.cons_cons '\n'
  | case3 c t h ih => exact ih.cons c
  | case4 t ih => exact (ih.cons '/').cons '/'
  | case5 c t h ih => exact ih.cons_cons c

/-! ### Directives -/

theorem isDirective_of_not_mem {line : Text} (h : '#' ∉ line) :
  isDirective line = false
  := by
  apply Text.hasPrefix_of_not_mem
  intro hmem
  apply h ((List.dropWhile_suffix isSpaceOrTab).subset hmem)

theorem blankDirectives_of_not_mem {t : Text} (h : '#' ∉ t) :
  blankDirectives t = t
  := by
  have hlines : ∀ line ∈ Text.splitWhere (· == '\n') t, '#' ∉ line := by
    intro line hline hmem
    apply h
    apply Text.mem_of_mem_splitWhere hline hmem
  rw [blankDirectives, List.map_congr_left (g := id), List.map_id,
    Text.splitWhere_eq_splitOnP, ← List.splitOn_eq_splitOnP, List.intercalate_splitOn]
  intro line hline
  rw [isDirective_of_not_mem (hlines line hline)]
  rfl

/-! ### Statements -/

/-- The characters at which a text can be split into statements. -/
def statementMarks : List Char := [';', '{', '}']

/-- Characters that end neither a statement nor a block are added to the statement. -/
theorem splitFrom_append {piece : Text} (h : ∀ c ∈ piece, c ∉ statementMarks) (depth : Nat)
    (current rest : Text) :
  splitFrom depth current (piece ++ rest) = splitFrom depth (piece.reverse ++ current) rest
  := by
  induction piece generalizing current with
  | nil => rfl
  | cons c piece ih =>
      have hc := h c List.mem_cons_self
      simp only [statementMarks, List.mem_cons, List.not_mem_nil, or_false, not_or] at hc
      rw [List.cons_append, splitFrom, if_neg (by simp [hc.1]), if_neg hc.2.1, if_neg hc.2.2,
        ih fun d hd => h d (List.mem_cons_of_mem c hd)]
      simp

theorem splitFrom_flatMap {pieces : List Text} {last : Text}
    (h : ∀ piece ∈ pieces, ∀ c ∈ piece, c ∉ statementMarks)
    (hlast : ∀ c ∈ last, c ∉ statementMarks) :
  splitFrom 0 [] (pieces.flatMap (· ++ [';']) ++ last) = pieces ++ [last]
  := by
  induction pieces with
  | nil =>
      have hsplit := splitFrom_append hlast 0 [] []
      rw [List.append_nil, List.append_nil] at hsplit
      rw [List.flatMap_nil, List.nil_append, hsplit, splitFrom, List.reverse_reverse]
      rfl
  | cons piece pieces ih =>
      have ih := ih fun p hp => h p (List.mem_cons_of_mem piece hp)
      rw [List.flatMap_cons, List.append_assoc, List.append_assoc,
        splitFrom_append (h piece List.mem_cons_self), List.append_nil, List.singleton_append,
        splitFrom, if_pos (by rfl), ih, List.reverse_reverse]
      rfl

/-- A body that is a sequence of pieces, each with a semicolon after it, has the collapsed pieces
as its statements. -/
theorem statements_flatMap {body : Text} {pieces : List Text} {last : Text}
    (hbody : stripComments body = pieces.flatMap (· ++ [';']) ++ last)
    (hdirective : '#' ∉ stripComments body)
    (hpieces : ∀ piece ∈ pieces, (∀ c ∈ piece, c ∉ statementMarks) ∧ Text.words piece ≠ [])
    (hlast : ∀ c ∈ last, isBlank c) :
  statements body = pieces.map Text.collapse
  := by
  have hmarks : ∀ c ∈ last, c ∉ statementMarks := by
    intro c hc hmark
    have hblank := hlast c hc
    simp only [statementMarks, List.mem_cons, List.not_mem_nil, or_false] at hmark
    rcases hmark with rfl | rfl | rfl
    all_goals contradiction
  have hempty : Text.collapse last = [] := by
    rw [Text.collapse, (Text.words_eq_nil_iff last).mpr hlast]
    rfl
  rw [statements, blankDirectives_of_not_mem hdirective, hbody,
    splitFrom_flatMap (fun p hp => (hpieces p hp).1) hmarks, List.map_append, List.filter_append,
    List.filter_eq_self.mpr]
  · simp [hempty]
  · intro s hs
    obtain ⟨piece, hpiece, rfl⟩ := List.mem_map.mp hs
    simpa using Text.collapse_ne_nil (hpieces piece hpiece).2

theorem statements_singleton {body piece : Text} (hbody : stripComments body = piece ++ [';'])
    (hdirective : '#' ∉ piece) (hmarks : ∀ c ∈ piece, c ∉ statementMarks)
    (hwords : Text.words piece ≠ []) :
  statements body = [Text.collapse piece]
  := by
  have hpieces : stripComments body = [piece].flatMap (· ++ [';']) ++ [] := by
    simpa using hbody
  apply statements_flatMap hpieces
  · simp [hbody, hdirective]
  · simpa using ⟨hmarks, hwords⟩
  · simp

end ContractInterface.Header
