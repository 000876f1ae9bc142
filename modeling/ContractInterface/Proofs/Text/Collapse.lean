import ContractInterface.Text.Blank
import Mathlib.Data.List.Basic
import Mathlib.Data.List.DropRight
import Mathlib.Data.List.TakeWhile

/-!
# Collapsing blanks

Splitting a text is the splitting of lists of the library, from which the words of a
concatenation follow.  Collapsing a text can also be done from left to right: `squeeze` makes one
space of every run of blanks, and what is left to do is to trim the two ends (`trim_squeeze`).
Characters that are not blank stand in `squeeze` unchanged, so a text between two such characters
is squeezed on its own.
-/

namespace ContractInterface.Text

/-- What holds of the characters of a text one by one.  A statement about all characters could
also be decided by going through every character there is. -/
theorem forall_mem_of_all {p : Char → Prop} [DecidablePred p] {t : Text}
    (h : t.all fun c => decide (p c)) :
  ∀ c ∈ t, p c
  := fun c hc => of_decide_eq_true (List.all_eq_true.mp h c hc)

theorem hasPrefix_of_not_mem {c : Char} {t : Text} (h : c ∉ t) :
  hasPrefix [c] t = false
  := by
  cases t with
  | nil => rfl
  | cons d t =>
      have hne : c ≠ d := by
        rintro rfl
        simp at h
      simp [hasPrefix, dropPrefix?, hne]

/-! ### Splitting -/

theorem splitWhere_eq_splitOnP (p : Char → Bool) (t : Text) :
  splitWhere p t = t.splitOnP p
  := by
  induction t with
  | nil => rfl
  | cons c t ih =>
      rw [splitWhere, List.splitOnP_cons_eq_if_modifyHead, ih]
      split
      · rfl
      · obtain ⟨piece, pieces, h⟩ := List.exists_cons_of_ne_nil (List.splitOnP_ne_nil p t)
        rw [h]
        rfl

theorem splitWhere_append {p : Char → Bool} {c : Char} (h : p c) (s t : Text) :
  splitWhere p (s ++ c :: t) = splitWhere p s ++ splitWhere p t
  := by
  simp only [splitWhere_eq_splitOnP]
  apply List.splitOnP_append_cons s t h

theorem splitWhere_of_forall {p : Char → Bool} {t : Text} (h : ∀ c ∈ t, p c = false) :
  splitWhere p t = [t]
  := by
  rw [splitWhere_eq_splitOnP]
  apply List.splitOnP_eq_singleton h

theorem mem_of_mem_splitWhere {p : Char → Bool} {t piece : Text} (h : piece ∈ splitWhere p t)
    {c : Char} (hc : c ∈ piece) :
  c ∈ t
  := by
  induction t generalizing piece with
  | nil =>
      obtain rfl := List.mem_singleton.mp h
      contradiction
  | cons d t ih =>
      rw [splitWhere] at h
      split at h
      · rcases List.mem_cons.mp h with rfl | h
        · contradiction
        · apply List.mem_cons_of_mem d (ih h hc)
      · split at h
        · rename_i hnil
          rw [splitWhere_eq_splitOnP] at hnil
          exact absurd hnil (List.splitOnP_ne_nil p t)
        · rename_i first pieces hpieces
          rcases List.mem_cons.mp h with rfl | h
          · rcases List.mem_cons.mp hc with rfl | hc
            · apply List.mem_cons_self
            · apply List.mem_cons_of_mem d (ih (by simp [hpieces]) hc)
          · apply List.mem_cons_of_mem d (ih (by simp [hpieces, h]) hc)

/-! ### Words -/

@[simp]
theorem words_nil : words [] = [] := rfl

theorem words_append {c : Char} (h : isBlank c) (s t : Text) :
  words (s ++ c :: t) = words s ++ words t
  := by
  rw [words, splitWhere_append h, List.filter_append]
  rfl

theorem words_cons_blank {c : Char} (h : isBlank c) (t : Text) :
  words (c :: t) = words t
  := words_append h [] t

theorem words_of_solid {t : Text} (hne : t ≠ []) (h : ∀ c ∈ t, isBlank c = false) :
  words t = [t]
  := by
  rw [words, splitWhere_of_forall h]
  simp [hne]

theorem words_singleton {c : Char} (h : isBlank c = false) :
  words [c] = [[c]]
  := words_of_solid (List.cons_ne_nil c []) (by simpa using h)

theorem words_cons_cons_blank {c d : Char} (hc : isBlank c = false) (hd : isBlank d)
    (t : Text) :
  words (c :: d :: t) = [c] :: words t
  := by
  have h := words_append hd [c] t
  rw [words_singleton hc] at h
  apply h

/-- A character that is not blank belongs to the word that follows it. -/
theorem words_cons_cons_solid {c d : Char} (hc : isBlank c = false) (hd : isBlank d = false)
    (t : Text) :
  ∃ w ws, words (d :: t) = w :: ws ∧ words (c :: d :: t) = (c :: w) :: ws
  := by
  have hpieces : ∃ piece pieces, splitWhere isBlank (d :: t) = (d :: piece) :: pieces := by
    rw [splitWhere, if_neg (by simp [hd])]
    split
    · exact ⟨[], [], rfl⟩
    · exact ⟨_, _, rfl⟩
  obtain ⟨piece, pieces, hpieces⟩ := hpieces
  use d :: piece, pieces.filter fun w => !w.isEmpty
  constructor
  · rw [words, hpieces]
    rfl
  · rw [words, splitWhere, if_neg (by simp [hc]), hpieces]
    rfl

/-- Either there is no blank in a text, or there is a first one. -/
theorem solid_or_exists_break (t : Text) :
  (∀ c ∈ t, isBlank c = false) ∨
    ∃ w c rest, t = w ++ c :: rest ∧ (∀ d ∈ w, isBlank d = false) ∧ isBlank c
  := by
  induction t with
  | nil =>
      left
      intro c hc
      contradiction
  | cons c t ih =>
      by_cases hc : isBlank c
      · right
        use [], c, t
        simpa using hc
      · have hc : isBlank c = false := by simpa using hc
        rcases ih with hsolid | ⟨w, d, rest, rfl, hsolid, hd⟩
        · left
          simpa [hc] using hsolid
        · right
          use c :: w, d, rest
          simpa [hc, hd] using hsolid

theorem words_cons_ne_nil {c : Char} (h : isBlank c = false) (t : Text) :
  words (c :: t) ≠ []
  := by
  cases t with
  | nil =>
      rw [words_singleton h]
      apply List.cons_ne_nil
  | cons d t =>
      by_cases hd : isBlank d
      · rw [words_cons_cons_blank h hd]
        apply List.cons_ne_nil
      · obtain ⟨w, ws, -, hwords⟩ := words_cons_cons_solid h (by simpa using hd) t
        rw [hwords]
        apply List.cons_ne_nil

theorem words_eq_nil_iff (t : Text) :
  words t = [] ↔ ∀ c ∈ t, isBlank c
  := by
  induction t with
  | nil => simp
  | cons c t ih =>
      by_cases hc : isBlank c
      · rw [words_cons_blank hc, ih]
        simp [hc]
      · simp [words_cons_ne_nil (by simpa using hc) t, hc]

theorem collapse_append {s t : Text} (hs : words s ≠ []) (ht : words t ≠ []) {c : Char}
    (h : isBlank c) :
  collapse (s ++ c :: t) = collapse s ++ ' ' :: collapse t
  := by
  rw [collapse, words_append h, collapse, collapse]
  generalize words s = us at hs
  induction us with
  | nil => contradiction
  | cons w us ih =>
      cases us with
      | nil =>
          rw [List.singleton_append, List.intercalate_cons_of_ne_nil ht,
            List.intercalate_singleton, List.append_assoc]
          rfl
      | cons w' us =>
          have hne : w' :: us ++ words t ≠ [] := by simp
          rw [List.cons_append, List.intercalate_cons_of_ne_nil hne, ih (List.cons_ne_nil w' us),
            List.intercalate_cons_of_ne_nil (List.cons_ne_nil w' us)]
          simp

theorem collapse_ne_nil {t : Text} (h : words t ≠ []) :
  collapse t ≠ []
  := by
  obtain ⟨w, ws, hwords⟩ := List.exists_cons_of_ne_nil h
  have hw : w ∈ words t := by simp [hwords]
  have hne : w ≠ [] := by simpa using (List.mem_filter.mp hw).2
  rw [collapse, hwords]
  cases ws with
  | nil => simpa using hne
  | cons w' ws =>
      rw [List.intercalate_cons_of_ne_nil (List.cons_ne_nil w' ws)]
      simp

theorem collapse_cons_blank {c : Char} (h : isBlank c) (t : Text) :
  collapse (c :: t) = collapse t
  := by
  rw [collapse, words_cons_blank h, collapse]

theorem collapse_of_solid {t : Text} (hne : t ≠ []) (h : ∀ c ∈ t, isBlank c = false) :
  collapse t = t
  := by
  rw [collapse, words_of_solid hne h, List.intercalate_singleton]

theorem collapse_cons_cons_blank {c d : Char} (hc : isBlank c = false) (hd : isBlank d)
    (t : Text) :
  collapse (c :: d :: t) = if words t = [] then [c] else c :: ' ' :: collapse t
  := by
  rw [collapse, words_cons_cons_blank hc hd]
  split
  · rename_i h
    rw [h, List.intercalate_singleton]
  · rename_i h
    rw [List.intercalate_cons_of_ne_nil h]
    rfl

theorem collapse_cons_cons_solid {c d : Char} (hc : isBlank c = false) (hd : isBlank d = false)
    (t : Text) :
  collapse (c :: d :: t) = c :: collapse (d :: t)
  := by
  obtain ⟨w, ws, hd, hc⟩ := words_cons_cons_solid hc hd t
  rw [collapse, hc, List.intercalate_cons_cons_left, collapse, hd]

/-! ### Trimming -/

theorem trimLeft_cons_blank {c : Char} (h : isBlank c) (t : Text) :
  trimLeft (c :: t) = trimLeft t
  := List.dropWhile_cons_of_pos h

theorem trimLeft_cons_solid {c : Char} (h : isBlank c = false) (t : Text) :
  trimLeft (c :: t) = c :: t
  := List.dropWhile_cons_of_neg (by simp [h])

theorem trimLeft_trimLeft (t : Text) :
  trimLeft (trimLeft t) = trimLeft t
  := List.dropWhile_idempotent isBlank t

theorem trimLeft_append_solid {c : Char} (h : isBlank c = false) (s t : Text) :
  trimLeft (s ++ c :: t) = trimLeft s ++ c :: t
  := by
  rw [trimLeft, List.dropWhile_append]
  split
  · rename_i hempty
    rw [List.dropWhile_cons_of_neg (by simp [h]), trimLeft, List.isEmpty_iff.mp hempty]
    rfl
  · rfl

theorem trimRight_cons_solid {c : Char} (h : isBlank c = false) (t : Text) :
  trimRight (c :: t) = c :: trimRight t
  := by
  rw [trimRight, dropEndWhile, List.reverse_cons, List.dropWhile_append]
  split
  · rename_i hempty
    rw [List.dropWhile_cons_of_neg (by simp [h]), trimRight, dropEndWhile,
      List.isEmpty_iff.mp hempty]
    rfl
  · rw [List.reverse_append]
    rfl

theorem trimRight_cons_of_ne_nil {t : Text} (h : trimRight t ≠ []) (c : Char) :
  trimRight (c :: t) = c :: trimRight t
  := by
  have hne : (t.reverse.dropWhile isBlank).isEmpty = false := by
    simpa [trimRight, dropEndWhile] using h
  rw [trimRight, dropEndWhile, List.reverse_cons, List.dropWhile_append, hne, trimRight,
    dropEndWhile]
  simp

theorem trimRight_append_solid {c : Char} (h : isBlank c = false) (t : Text) :
  trimRight (t ++ [c]) = t ++ [c]
  := by
  rw [trimRight, dropEndWhile, List.reverse_append, List.reverse_singleton,
    List.singleton_append, List.dropWhile_cons_of_neg (by simp [h]), List.reverse_cons,
    List.reverse_reverse]

theorem trimRight_append_blank {s t : Text} (h : ∀ c ∈ t, isBlank c) :
  trimRight (s ++ t) = trimRight s
  := by
  rw [trimRight, dropEndWhile, List.reverse_append,
    List.dropWhile_append_of_pos (by simpa using h), trimRight, dropEndWhile]

theorem length_trimRight_le (t : Text) :
  (trimRight t).length ≤ t.length
  := by
  have h := List.length_dropWhile_le isBlank t.reverse
  simpa [trimRight, dropEndWhile] using h

theorem length_trim_le (t : Text) :
  (trim t).length ≤ t.length
  := Nat.le_trans (length_trimRight_le _) (List.length_dropWhile_le isBlank t)

theorem trim_cons_solid {c : Char} (h : isBlank c = false) (t : Text) :
  trim (c :: t) = c :: trimRight t
  := by
  rw [trim, trimLeft_cons_solid h, trimRight_cons_solid h]

theorem trim_append_solid {c d : Char} (hc : isBlank c = false) (hd : isBlank d = false)
    (s t : Text) :
  trim (s ++ c :: (t ++ [d])) = trimLeft s ++ c :: (t ++ [d])
  := by
  rw [trim, trimLeft_append_solid hc, ← List.cons_append, ← List.append_assoc,
    trimRight_append_solid hd]

theorem mem_trimLeft {c : Char} (h : isBlank c = false) (t : Text) :
  c ∈ trimLeft t ↔ c ∈ t
  := by
  induction t with
  | nil => rfl
  | cons d t ih =>
      by_cases hd : isBlank d
      · have hne : c ≠ d := by
          rintro rfl
          simp [h] at hd
        rw [trimLeft_cons_blank hd, ih, List.mem_cons]
        simp [hne]
      · rw [trimLeft_cons_solid (by simpa using hd)]

theorem mem_trimRight {c : Char} (h : isBlank c = false) (t : Text) :
  c ∈ trimRight t ↔ c ∈ t
  := by
  rw [trimRight, dropEndWhile, List.mem_reverse, ← trimLeft, mem_trimLeft h, List.mem_reverse]

theorem mem_trim {c : Char} (h : isBlank c = false) (t : Text) :
  c ∈ trim t ↔ c ∈ t
  := by
  rw [trim, mem_trimRight h, mem_trimLeft h]

theorem trimRight_cons {d : Char} {t : Text} (h : trimRight (d :: t) ≠ []) :
  trimRight (d :: t) = d :: trimRight t
  := by
  by_cases ht : trimRight t = []
  · have hd : isBlank d = false := by
      by_contra hd
      apply h
      have hblanks : ∀ e ∈ t, isBlank e := List.rdropWhile_eq_nil_iff.mp ht
      apply List.rdropWhile_eq_nil_iff.mpr
      rw [List.forall_mem_cons]
      exact ⟨by simpa using hd, hblanks⟩
    exact trimRight_cons_solid hd t
  · exact trimRight_cons_of_ne_nil ht d

theorem trim_eq_nil_iff {t : Text} :
  trim t = [] ↔ ∀ c ∈ t, isBlank c
  := by
  constructor
  · intro h c hc
    by_contra hsolid
    rw [← mem_trim (by simpa using hsolid), h] at hc
    contradiction
  · intro h
    rw [trim, trimLeft, List.dropWhile_eq_nil_iff.mpr h]
    rfl

theorem subset_trimRight (t : Text) :
  trim t ⊆ trimRight t
  := by
  induction t with
  | nil => apply List.Subset.refl
  | cons d t ih =>
      by_cases hd : isBlank d
      · rw [trim, trimLeft_cons_blank hd, ← trim]
        intro c hc
        have hmem := ih hc
        rw [trimRight_cons_of_ne_nil (List.ne_nil_of_mem hmem)]
        exact List.mem_cons_of_mem d hmem
      · have hd : isBlank d = false := by simpa using hd
        rw [trim_cons_solid hd, trimRight_cons_solid hd]
        apply List.Subset.refl

/-- A trimmed text starts with a character that is not blank. -/
theorem exists_cons_of_trim {w : Text} (hne : w ≠ []) (h : trim w = w) :
  ∃ d u, w = d :: u ∧ isBlank d = false ∧ trimRight w = w
  := by
  obtain ⟨d, u, rfl⟩ := List.exists_cons_of_ne_nil hne
  have hd : isBlank d = false := by
    by_contra hd
    have hlength := length_trim_le u
    rw [trim, trimLeft_cons_blank (by simpa using hd), ← trim] at h
    rw [h, List.length_cons] at hlength
    omega
  refine ⟨d, u, rfl, hd, ?_⟩
  rwa [trim, trimLeft_cons_solid hd] at h

theorem trimRight_trimRight (t : Text) :
  trimRight (trimRight t) = trimRight t
  := by
  rw [trimRight, trimRight, dropEndWhile, dropEndWhile, List.reverse_reverse,
    List.dropWhile_idempotent]

@[simp]
theorem trim_trim (t : Text) :
  trim (trim t) = trim t
  := by
  rw [trim, trim]
  rcases h : trimLeft t with _ | ⟨c, u⟩
  · rfl
  · have hc := List.head?_dropWhile_not isBlank t
    rw [← trimLeft, h] at hc
    rw [trimRight_cons_solid hc, trimLeft_cons_solid hc, trimRight_cons_solid hc,
      trimRight_trimRight]

theorem words_trimLeft (t : Text) :
  words (trimLeft t) = words t
  := by
  induction t with
  | nil => rfl
  | cons c t ih =>
      by_cases hc : isBlank c
      · rw [trimLeft_cons_blank hc, ih, words_cons_blank hc]
      · rw [trimLeft_cons_solid (by simpa using hc)]

theorem words_trimRight (t : Text) :
  words (trimRight t) = words t
  := by
  induction t using List.reverseRecOn with
  | nil => rfl
  | append_singleton t c ih =>
      by_cases hc : isBlank c
      · have htrim : trimRight (t ++ [c]) = trimRight t := by
          simp [trimRight, dropEndWhile, hc]
        rw [htrim, ih, words_append hc, words_nil, List.append_nil]
      · rw [trimRight_append_solid (by simpa using hc)]

theorem collapse_trim (t : Text) :
  collapse (trim t) = collapse t
  := by
  rw [collapse, trim, words_trimRight, words_trimLeft, collapse]

/-! ### Squeezing -/

/-- The text with every run of blanks made one space. -/
def squeeze : Text → Text
  | [] => []
  | c :: t => if isBlank c then ' ' :: trimLeft (squeeze t) else c :: squeeze t

theorem squeeze_cons_blank {c : Char} (h : isBlank c) (t : Text) :
  squeeze (c :: t) = ' ' :: trimLeft (squeeze t)
  := by
  rw [squeeze, if_pos h]

theorem squeeze_cons_solid {c : Char} (h : isBlank c = false) (t : Text) :
  squeeze (c :: t) = c :: squeeze t
  := by
  rw [squeeze, if_neg (by simp [h])]

/-- A text in front of a character that is not blank is squeezed on its own. -/
theorem squeeze_append_solid {c : Char} (h : isBlank c = false) (s t : Text) :
  squeeze (s ++ c :: t) = squeeze s ++ c :: squeeze t
  := by
  induction s with
  | nil => apply squeeze_cons_solid h
  | cons d s ih =>
      by_cases hd : isBlank d
      · rw [List.cons_append, squeeze_cons_blank hd, squeeze_cons_blank hd, ih,
          trimLeft_append_solid h]
        rfl
      · have hd : isBlank d = false := by simpa using hd
        rw [List.cons_append, squeeze_cons_solid hd, squeeze_cons_solid hd, ih]
        rfl

theorem squeeze_of_solid {t : Text} (h : ∀ c ∈ t, isBlank c = false) :
  squeeze t = t
  := by
  induction t with
  | nil => rfl
  | cons c t ih =>
      rw [squeeze_cons_solid (h c List.mem_cons_self),
        ih fun d hd => h d (List.mem_cons_of_mem c hd)]

/-- Of a text without words nothing is left but a space. -/
theorem squeeze_of_words_eq_nil {t : Text} (h : words t = []) :
  trimLeft (squeeze t) = []
  := by
  induction t with
  | nil => rfl
  | cons c t ih =>
      have hc : isBlank c := (words_eq_nil_iff (c :: t)).mp h c List.mem_cons_self
      rw [words_cons_blank hc] at h
      rw [squeeze_cons_blank hc, trimLeft_cons_blank rfl, ih h]
      rfl

/-- To collapse a text is to squeeze it and to trim its ends. -/
theorem trim_squeeze (t : Text) :
  trim (squeeze t) = collapse t
  := by
  induction t with
  | nil => rfl
  | cons c t ih =>
      by_cases hc : isBlank c
      · rw [collapse_cons_blank hc, ← ih, squeeze_cons_blank hc, trim, trimLeft_cons_blank rfl,
          trimLeft_trimLeft, trim]
      · have hc : isBlank c = false := by simpa using hc
        rw [squeeze_cons_solid hc, trim_cons_solid hc]
        -- The run of blanks after `c`, if there is one, ends the text or stands inside it.
        cases t with
        | nil =>
            rw [collapse_of_solid (List.cons_ne_nil c []) (by simpa using hc)]
            rfl
        | cons d t =>
            by_cases hd : isBlank d
            · rw [squeeze_cons_blank hd, trim, trimLeft_cons_blank rfl, trimLeft_trimLeft,
                collapse_cons_blank hd] at ih
              rw [squeeze_cons_blank hd, collapse_cons_cons_blank hc hd]
              split
              · rename_i hwords
                rw [squeeze_of_words_eq_nil hwords]
                rfl
              · rename_i hwords
                rw [trimRight_cons_of_ne_nil (by rw [ih]; exact collapse_ne_nil hwords), ih]
            · have hd : isBlank d = false := by simpa using hd
              rw [squeeze_cons_solid hd, trim_cons_solid hd] at ih
              rw [squeeze_cons_solid hd, trimRight_cons_solid hd, ih,
                collapse_cons_cons_solid hc hd]

/-! ### Collapsed texts -/

theorem mem_squeeze {c : Char} (h : isBlank c = false) (t : Text) :
  c ∈ squeeze t ↔ c ∈ t
  := by
  induction t with
  | nil => rfl
  | cons d t ih =>
      by_cases hd : isBlank d
      · have hspace : c ≠ ' ' := by
          rintro rfl
          contradiction
        have hne : c ≠ d := by
          rintro rfl
          simp [h] at hd
        rw [squeeze_cons_blank hd, List.mem_cons, mem_trimLeft h, ih, List.mem_cons]
        simp [hspace, hne]
      · rw [squeeze_cons_solid (by simpa using hd), List.mem_cons, ih, List.mem_cons]

/-- The characters that are not blank stay. -/
theorem mem_collapse {c : Char} (h : isBlank c = false) (t : Text) :
  c ∈ collapse t ↔ c ∈ t
  := by
  rw [← trim_squeeze, mem_trim h, mem_squeeze h]

theorem trim_of_solid {t : Text} (h : ∀ c ∈ t, isBlank c = false) :
  trim t = t
  := by
  cases t with
  | nil => rfl
  | cons c t =>
      have htrim := trim_squeeze (c :: t)
      rwa [squeeze_of_solid h, collapse_of_solid (List.cons_ne_nil c t) h] at htrim

theorem any_collapse {p : Char → Bool} (h : ∀ c, p c → isBlank c = false) (t : Text) :
  (collapse t).any p = t.any p
  := by
  rw [Bool.eq_iff_iff, List.any_eq_true, List.any_eq_true]
  constructor
  · rintro ⟨c, hc, hp⟩
    use c, (mem_collapse (h c hp) t).mp hc
  · rintro ⟨c, hc, hp⟩
    use c, (mem_collapse (h c hp) t).mpr hc

@[simp]
theorem trim_collapse (t : Text) :
  trim (collapse t) = collapse t
  := by
  rw [← trim_squeeze, trim_trim]

/-- A trimmed text is either collapsed already or keeps a blank when it is collapsed. -/
theorem collapse_trim_cases (t : Text) :
  collapse (trim t) = trim t ∨ ((∃ c ∈ trim t, isBlank c) ∧ ' ' ∈ collapse (trim t))
  := by
  have htrim := trim_trim t
  generalize trim t = u at htrim
  rcases solid_or_exists_break u with hsolid | ⟨w, c, rest, rfl, hsolid, hc⟩
  · left
    cases u with
    | nil => rfl
    | cons c u => apply collapse_of_solid (List.cons_ne_nil c u) hsolid
  · right
    use ⟨c, by simp, hc⟩
    have hw : w ≠ [] := by
      rintro rfl
      have hlength := length_trim_le rest
      rw [List.nil_append, trim, trimLeft_cons_blank hc, ← trim] at htrim
      rw [htrim, List.length_cons] at hlength
      omega
    have hrest : words rest ≠ [] := by
      intro hrest
      obtain ⟨d, w, rfl⟩ := List.exists_cons_of_ne_nil hw
      have hblank : ∀ e ∈ c :: rest, isBlank e := by
        rw [← words_eq_nil_iff, words_cons_blank hc, hrest]
      have hlength := length_trimRight_le (d :: w)
      rw [trim, List.cons_append, trimLeft_cons_solid (hsolid d List.mem_cons_self),
        ← List.cons_append, trimRight_append_blank hblank] at htrim
      rw [htrim, List.length_append, List.length_cons (a := c)] at hlength
      omega
    rw [collapse_append (by simp [words_of_solid hw hsolid]) hrest hc]
    simp

/-- A collapsed text ends with a solid character. -/
theorem exists_collapse_eq {t : Text} (h : words t ≠ []) :
  ∃ front c, collapse t = front ++ [c] ∧ isBlank c = false
  := by
  obtain ⟨front, c, hc⟩ := (List.eq_nil_or_concat' (collapse t)).resolve_left
    (collapse_ne_nil h)
  use front, c, hc
  have hlast := List.head?_dropWhile_not isBlank (trimLeft (squeeze t)).reverse
  rw [← trim_squeeze, trim, trimRight, dropEndWhile, List.reverse_eq_iff] at hc
  rw [hc] at hlast
  simpa using hlast

theorem solid_of_mem_words {t w : Text} (h : w ∈ words t) :
  w ≠ [] ∧ ∀ c ∈ w, isBlank c = false
  := by
  induction t generalizing w with
  | nil => contradiction
  | cons c t ih =>
      by_cases hc : isBlank c
      · rw [words_cons_blank hc] at h
        apply ih h
      · have hc : isBlank c = false := by simpa using hc
        cases t with
        | nil =>
            rw [words_singleton hc] at h
            obtain rfl := List.mem_singleton.mp h
            simpa using hc
        | cons d t =>
            by_cases hd : isBlank d
            · rw [words_cons_cons_blank hc hd] at h
              rcases List.mem_cons.mp h with rfl | h
              · simpa using hc
              · apply ih (by rwa [words_cons_blank hd])
            · obtain ⟨v, vs, hv, hcv⟩ := words_cons_cons_solid hc (by simpa using hd) t
              rw [hcv] at h
              rcases List.mem_cons.mp h with rfl | h
              · have hsolid := (ih (w := v) (by simp [hv])).2
                simpa [hc] using hsolid
              · apply ih (by simp [hv, h])

theorem words_intercalate {ws : List Text}
    (h : ∀ w ∈ ws, w ≠ [] ∧ ∀ c ∈ w, isBlank c = false) :
  words ([' '].intercalate ws) = ws
  := by
  induction ws with
  | nil => rfl
  | cons w ws ih =>
      obtain ⟨hne, hsolid⟩ := h w List.mem_cons_self
      have ih := ih fun v hv => h v (List.mem_cons_of_mem w hv)
      cases ws with
      | nil =>
          rw [List.intercalate_singleton]
          apply words_of_solid hne hsolid
      | cons w' ws =>
          rw [List.intercalate_cons_cons, List.append_assoc, List.singleton_append,
            words_append rfl, ih, words_of_solid hne hsolid]
          rfl

@[simp]
theorem words_collapse (t : Text) :
  words (collapse t) = words t
  := words_intercalate fun _ => solid_of_mem_words

@[simp]
theorem collapse_collapse (t : Text) :
  collapse (collapse t) = collapse t
  := by
  rw [collapse, words_collapse, collapse]

/-! ### Words of collapsed texts -/

theorem words_trim (t : Text) :
  words (trim t) = words t
  := by
  rw [trim, words_trimRight, words_trimLeft]

@[simp]
theorem words_squeeze (t : Text) :
  words (squeeze t) = words t
  := by
  rw [← words_trim, trim_squeeze, words_collapse]

theorem words_append_left {s : Text} (h : ∀ c ∈ s, isBlank c) (t : Text) :
  words (s ++ t) = words t
  := by
  induction s with
  | nil => rfl
  | cons c s ih =>
      obtain ⟨hc, hs⟩ := List.forall_mem_cons.mp h
      rw [List.cons_append, words_cons_blank hc, ih hs]

theorem words_append_right {t : Text} (h : ∀ c ∈ t, isBlank c) (s : Text) :
  words (s ++ t) = words s
  := by
  rw [← words_trimRight, trimRight_append_blank h, words_trimRight]

/-! ### The characters between blanks -/

/-- The characters of a text that are not blank. -/
def withoutBlanks (t : Text) : Text :=
  t.filter fun c => !isBlank c

theorem flatten_words (t : Text) :
  (words t).flatten = withoutBlanks t
  := by
  have hsplit : (splitWhere isBlank t).flatten = withoutBlanks t := by
    induction t with
    | nil => rfl
    | cons c t ih =>
        rw [splitWhere_eq_splitOnP] at ih
        rw [splitWhere_eq_splitOnP, List.splitOnP_cons_eq_if_modifyHead]
        split
        · rename_i hc
          rw [List.flatten_cons, ih, withoutBlanks, withoutBlanks, List.filter_cons_of_neg]
          · rfl
          · simpa using hc
        · rename_i hc
          obtain ⟨piece, pieces, h⟩ := List.exists_cons_of_ne_nil (List.splitOnP_ne_nil isBlank t)
          rw [h, List.flatten_cons] at ih
          rw [h, List.modifyHead_cons, List.flatten_cons, List.cons_append, ih, withoutBlanks,
            withoutBlanks, List.filter_cons_of_pos]
          simpa using hc
  rw [words, List.flatten_filter_not_isEmpty, hsplit]

/-- Collapsing a text moves blanks only. -/
@[simp]
theorem withoutBlanks_collapse (t : Text) :
  withoutBlanks (collapse t) = withoutBlanks t
  := by
  rw [← flatten_words, words_collapse, flatten_words]

/-- Words with one space between neighbours. -/
def Collapsed (t : Text) : Prop :=
  ∃ ws : List Text, (∀ w ∈ ws, w ≠ [] ∧ ∀ c ∈ w, isBlank c = false) ∧ t = [' '].intercalate ws

theorem collapsed_collapse (t : Text) :
  Collapsed (collapse t)
  := ⟨words t, fun _ => solid_of_mem_words, rfl⟩

theorem collapsed_iff {t : Text} :
  Collapsed t ↔ collapse t = t
  := by
  constructor
  · rintro ⟨ws, hws, rfl⟩
    rw [collapse, words_intercalate hws]
  · intro h
    rw [← h]
    apply collapsed_collapse

/-! ### Parts of squeezed texts -/

theorem trimLeft_squeeze (t : Text) :
  trimLeft (squeeze t) = squeeze (trimLeft t)
  := by
  induction t with
  | nil => rfl
  | cons c t ih =>
      by_cases hc : isBlank c
      · rw [squeeze_cons_blank hc, trimLeft_cons_blank rfl, trimLeft_trimLeft, ih,
          trimLeft_cons_blank hc]
      · have hc : isBlank c = false := by simpa using hc
        rw [squeeze_cons_solid hc, trimLeft_cons_solid hc, trimLeft_cons_solid hc,
          squeeze_cons_solid hc]

/-- What stands before a solid character of a squeezed text has been squeezed on its own. -/
theorem exists_of_squeeze_eq {c : Char} (hc : isBlank c = false) {t front back : Text}
    (h : squeeze t = front ++ c :: back) :
  ∃ front' back', t = front' ++ c :: back' ∧ squeeze front' = front
  := by
  induction t generalizing front with
  | nil => simp [squeeze] at h
  | cons d t ih =>
      by_cases hd : isBlank d
      · rw [squeeze_cons_blank hd] at h
        cases front with
        | nil =>
            obtain ⟨rfl, -⟩ := List.cons.inj h
            contradiction
        | cons e front =>
            have htrim : trimLeft (squeeze t) = front ++ c :: back := (List.cons.inj h).2
            have hsplit : squeeze t = ((squeeze t).takeWhile isBlank ++ front) ++ c :: back := by
              rw [List.append_assoc, ← htrim]
              exact List.takeWhile_append_dropWhile.symm
            obtain ⟨front', back', ht, hfront⟩ := ih hsplit
            refine ⟨d :: front', back', by rw [ht]; rfl, ?_⟩
            rw [hsplit, trimLeft_append_solid hc] at htrim
            rw [squeeze_cons_blank hd, hfront, List.append_cancel_right htrim, (List.cons.inj h).1]
      · have hd : isBlank d = false := by simpa using hd
        rw [squeeze_cons_solid hd] at h
        cases front with
        | nil =>
            obtain ⟨rfl, -⟩ := List.cons.inj h
            exact ⟨[], t, rfl, rfl⟩
        | cons e front =>
            obtain ⟨front', back', rfl, hfront⟩ := ih (List.cons.inj h).2
            refine ⟨d :: front', back', rfl, ?_⟩
            rw [squeeze_cons_solid hd, hfront, (List.cons.inj h).1]

end ContractInterface.Text
