import ContractInterface.Header.Member
import ContractInterface.Proofs.Text.Collapse
import ContractInterface.Proofs.Text.Word

/-!
# Runs of word characters

The runs of a text are its pieces between the characters that are not word characters.  A keyword
that stands in a text between word boundaries is one of its runs, and the runs of a text with a
boundary in it are those of its two sides; so it is enough to know the runs of the parts of a text
to exclude a keyword from it.
-/

namespace ContractInterface

namespace Text

/-- The maximal runs of word characters, and an empty one between boundaries without one. -/
def runs (t : Text) : List Text :=
  splitWhere (fun c => !isWord c) t

theorem runs_append {c : Char} (h : isWord c = false) (s t : Text) :
  runs (s ++ c :: t) = runs s ++ runs t
  := splitWhere_append (by simp [h]) s t

theorem runs_of_forall {t : Text} (h : ∀ c ∈ t, isWord c) :
  runs t = [t]
  := splitWhere_of_forall fun c hc => by simp [h c hc]

theorem runs_cons_boundary {c : Char} (h : isWord c = false) (t : Text) :
  runs (c :: t) = [] :: runs t
  := runs_append h [] t

/-- The first run is taken off the front. -/
theorem exists_runs_eq (t : Text) :
  ∃ others, runs t = t.takeWhile isWord :: others
  := by
  induction t with
  | nil => exact ⟨[], rfl⟩
  | cons c t ih =>
      by_cases hc : isWord c
      · obtain ⟨others, h⟩ := ih
        use others
        rw [runs] at h
        rw [runs, splitWhere, if_neg (by simp [hc]), h, List.takeWhile_cons_of_pos hc]
      · use runs t
        rw [runs_cons_boundary (by simpa using hc), List.takeWhile_cons_of_neg hc]

theorem runs_cons_word {c : Char} (h : isWord c) (t : Text) :
  (runs (c :: t)).tail = (runs t).tail
  := by
  obtain ⟨others, ht⟩ := exists_runs_eq t
  rw [runs] at ht
  rw [runs, splitWhere, if_neg (by simp [h]), ht, runs, ht]
  rfl

/-- Whether a word is no run of a text, where the first run counts only if the character before
the text is a boundary. -/
def Avoids (word : Text) (before : Option Char) (t : Text) : Prop :=
  (before.any isWord = false → word ∉ runs t) ∧ word ∉ (runs t).tail

theorem Avoids.of_not_mem {word t : Text} (h : word ∉ runs t) (before : Option Char) :
  Avoids word before t
  := ⟨fun _ => h, fun hmem => h (List.mem_of_mem_tail hmem)⟩

/-- A word that a text avoids is not at its front. -/
theorem Avoids.takeWhile_ne {word t : Text} {before : Option Char} (h : Avoids word before t)
    (hbefore : before.any isWord = false) :
  t.takeWhile isWord ≠ word
  := by
  rintro rfl
  obtain ⟨others, hothers⟩ := exists_runs_eq t
  apply h.1 hbefore
  rw [hothers]
  apply List.mem_cons_self

theorem Avoids.tail {word t : Text} {before : Option Char} {c : Char}
    (h : Avoids word before (c :: t)) :
  Avoids word (some c) t
  := by
  by_cases hc : isWord c
  · have htail := h.2
    rw [runs_cons_word hc] at htail
    use by simp [hc]
  · have htail := h.2
    rw [runs_cons_boundary (by simpa using hc), List.tail_cons] at htail
    apply Avoids.of_not_mem htail

/-! ### Keywords -/

theorem eq_append_of_dropPrefix? {word t rest : Text} (h : dropPrefix? word t = some rest) :
  t = word ++ rest
  := by
  induction word generalizing t with
  | nil => simpa [dropPrefix?] using h
  | cons c word ih =>
      cases t with
      | nil => contradiction
      | cons d t =>
          simp only [dropPrefix?, Option.ite_none_right_eq_some] at h
          obtain ⟨rfl, h⟩ := h
          rw [ih h]
          rfl

theorem suffix_of_dropPrefix? {word t rest : Text} (h : dropPrefix? word t = some rest) :
  rest <:+ t
  := ⟨word, (eq_append_of_dropPrefix? h).symm⟩

theorem eq_append_of_dropSuffix? {word t front : Text} (h : dropSuffix? word t = some front) :
  t = front ++ word
  := by
  obtain ⟨rest, hrest, rfl⟩ := Option.map_eq_some_iff.mp h
  have heq := congrArg List.reverse (eq_append_of_dropPrefix? hrest)
  simpa using heq

theorem dropPrefix?_append (word rest : Text) :
  dropPrefix? word (word ++ rest) = some rest
  := by
  induction word with
  | nil => rfl
  | cons c word ih => simpa [dropPrefix?] using ih

theorem dropPrefix?_append_bind (front back t : Text) :
  dropPrefix? (front ++ back) t = (dropPrefix? front t).bind (dropPrefix? back)
  := by
  induction front generalizing t with
  | nil => rfl
  | cons c front ih =>
      cases t with
      | nil => rfl
      | cons d t =>
          rw [List.cons_append, dropPrefix?, dropPrefix?, ih]
          split
          · rfl
          · rfl

/-- A keyword at the front of a text is its first run. -/
theorem takeWhile_of_dropKeyword? {word t rest : Text} (hword : ∀ c ∈ word, isWord c)
    (h : dropKeyword? word t = some rest) :
  t.takeWhile isWord = word
  := by
  rw [dropKeyword?] at h
  split at h
  · rename_i rest' hprefix
    rw [eq_append_of_dropPrefix? hprefix]
    have hboundary : rest'.startsWord = false := by
      by_contra hstarts
      simp [hstarts] at h
    exact (takeWhile_append_boundary hword hboundary).1
  · contradiction

/-- The first run of a text can be taken off as a keyword. -/
theorem dropKeyword?_of_takeWhile {word t : Text} (h : t.takeWhile isWord = word) :
  dropKeyword? word t = some (t.dropWhile isWord)
  := by
  have hprefix : dropPrefix? word t = some (t.dropWhile isWord) := by
    have happend := dropPrefix?_append word (t.dropWhile isWord)
    rwa [← h, List.takeWhile_append_dropWhile, h] at happend
  have hboundary : startsWord (t.dropWhile isWord) = false := by
    have hhead := List.head?_dropWhile_not isWord t
    cases hrest : t.dropWhile isWord with
    | nil => rfl
    | cons c rest =>
        rw [hrest] at hhead
        exact hhead
  rw [dropKeyword?, hprefix]
  simp [hboundary]

theorem dropKeyword?_eq_none_iff {word t : Text} (hword : ∀ c ∈ word, isWord c) :
  dropKeyword? word t = none ↔ t.takeWhile isWord ≠ word
  := by
  constructor
  · intro hnone hfirst
    rw [dropKeyword?_of_takeWhile hfirst] at hnone
    contradiction
  · intro hfirst
    rw [Option.eq_none_iff_forall_not_mem]
    intro rest hrest
    exact hfirst (takeWhile_of_dropKeyword? hword hrest)

theorem dropKeyword?_of_not_mem {word t : Text} (hword : ∀ c ∈ word, isWord c)
    (h : word ∉ runs t) :
  dropKeyword? word t = none
  := (dropKeyword?_eq_none_iff hword).mpr ((Avoids.of_not_mem h none).takeWhile_ne rfl)

/-! ### Runs of collapsed texts -/

/-- The runs of a text are those of its words. -/
theorem mem_runs_iff {word : Text} (hne : word ≠ []) {t : Text} :
  word ∈ runs t ↔ ∃ w ∈ words t, word ∈ runs w
  := by
  induction hn : t.length using Nat.strong_induction_on generalizing t with
  | h n ih =>
      rcases solid_or_exists_break t with hsolid | ⟨w, c, rest, rfl, hsolid, hc⟩
      · cases t with
        | nil => simpa [runs, splitWhere] using hne
        | cons c t => simp [words_of_solid (List.cons_ne_nil c t) hsolid]
      · have hrest := ih rest.length (by simp at hn; omega) rfl
        rw [runs_append (isWord_of_isBlank hc), words_append hc, List.mem_append, hrest]
        cases w with
        | nil => simp [runs, splitWhere, hne]
        | cons d w =>
            rw [words_of_solid (List.cons_ne_nil d w) hsolid]
            simp

theorem mem_runs_congr {word : Text} (hne : word ≠ []) {s t : Text} (h : words s = words t) :
  word ∈ runs s ↔ word ∈ runs t
  := by
  rw [mem_runs_iff hne, mem_runs_iff hne, h]

theorem takeWhile_squeeze (t : Text) :
  (squeeze t).takeWhile isWord = t.takeWhile isWord
  := by
  induction t with
  | nil => rfl
  | cons c t ih =>
      by_cases hc : isBlank c
      · rw [squeeze_cons_blank hc, List.takeWhile_cons_of_neg (by decide),
          List.takeWhile_cons_of_neg (by simp [isWord_of_isBlank hc])]
      · rw [squeeze_cons_solid (by simpa using hc), List.takeWhile_cons, ih, List.takeWhile_cons]

theorem takeWhile_trimRight (t : Text) :
  (trimRight t).takeWhile isWord = t.takeWhile isWord
  := by
  have hblanks : ∀ c ∈ ((t.reverse.takeWhile isBlank).reverse).head?, isWord c = false := by
    intro c hc
    apply isWord_of_isBlank
    apply List.mem_takeWhile_imp (List.mem_reverse.mp (List.mem_of_mem_head? hc))
  have hsplit : t = trimRight t ++ (t.reverse.takeWhile isBlank).reverse := by
    rw [trimRight, dropEndWhile, ← List.reverse_append, List.takeWhile_append_dropWhile,
      List.reverse_reverse]
  conv_rhs => rw [hsplit, (takeWhile_append_stop hblanks _).1]

/-- The first run of a text. -/
theorem takeWhile_collapse (t : Text) :
  (collapse t).takeWhile isWord = (trimLeft t).takeWhile isWord
  := by
  rw [← trim_squeeze, trim, takeWhile_trimRight, trimLeft_squeeze, takeWhile_squeeze]

end Text

namespace Header.Statement

theorem containsWord_of_avoids {word : Text} (hword : ∀ c ∈ word, isWord c)
    {before : Option Char} {t : Text} (h : Text.Avoids word before t) :
  containsWord word before t = false
  := by
  induction t generalizing before with
  | nil => rfl
  | cons c t ih =>
      rw [containsWord, ih h.tail, Bool.or_false, Bool.and_eq_false_iff]
      by_cases hbefore : before.any isWord
      · left
        simp [hbefore]
      · right
        rw [Option.isSome_eq_false_iff, Option.isNone_iff_eq_none]
        by_contra hsome
        obtain ⟨rest, hrest⟩ := Option.ne_none_iff_exists'.mp hsome
        apply h.takeWhile_ne (by simpa using hbefore) (Text.takeWhile_of_dropKeyword? hword hrest)

/-- A word that is no run of a text does not stand in it. -/
theorem containsWord_of_not_mem {word : Text} (hword : ∀ c ∈ word, isWord c) {t : Text}
    (h : word ∉ Text.runs t) :
  containsWord word none t = false
  := containsWord_of_avoids hword (Text.Avoids.of_not_mem h none)

/-- A word that is a run of a text stands in it. -/
theorem containsWord_of_runs {word : Text} (hne : word ≠ []) {before : Option Char} {t : Text}
    (h : (before.any isWord = false ∧ word ∈ Text.runs t) ∨ word ∈ (Text.runs t).tail) :
  containsWord word before t
  := by
  induction t generalizing before with
  | nil => simp [Text.runs, Text.splitWhere, hne] at h
  | cons c t ih =>
      rw [containsWord, Bool.or_eq_true]
      by_cases hc : isWord c
      · obtain ⟨others, hothers⟩ := Text.exists_runs_eq (c :: t)
        have htail := Text.runs_cons_word hc t
        rw [hothers, List.tail_cons] at htail
        rw [hothers, List.mem_cons, List.tail_cons, htail] at h
        by_cases hrest : word ∈ (Text.runs t).tail
        · exact .inr (ih (.inr hrest))
        · obtain ⟨hbefore, hfirst⟩ :
              before.any isWord = false ∧ word = (c :: t).takeWhile isWord := by
            simpa [hrest] using h
          left
          rw [hbefore, Text.dropKeyword?_of_takeWhile hfirst.symm]
          rfl
      · have hc : isWord c = false := by simpa using hc
        rw [Text.runs_cons_boundary hc, List.mem_cons, List.tail_cons] at h
        have hrest : word ∈ Text.runs t := by
          rcases h with ⟨-, h⟩ | h
          · exact h.resolve_left hne
          · exact h
        exact .inr (ih (.inl ⟨hc, hrest⟩))

theorem containsWord_of_mem {word : Text} (hne : word ≠ []) {t : Text} (h : word ∈ Text.runs t) :
  containsWord word none t
  := containsWord_of_runs hne (.inl ⟨rfl, h⟩)

end Header.Statement

end ContractInterface
