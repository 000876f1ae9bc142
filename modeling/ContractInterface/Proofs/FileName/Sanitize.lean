import ContractInterface.FileName
import ContractInterface.Proofs.Text.Run
import Mathlib.Data.List.Destutter

/-!
# Tidy names

A name is sanitized in three steps: underscores are put in place of the characters that are not
safe, runs of underscores shrink to one, and the underscores at the two ends are dropped.  None of
the steps undoes what an earlier one has done.  Shrinking puts no new characters in, and what is
left between the ends has been shrunk.  So the result is tidy, and a tidy name stays as it is.

Shrinking runs of underscores is the destuttering of lists of the library, for the relation of
characters that are not both underscores.
-/

namespace ContractInterface.FileName

/-! ### Runs of underscores -/

/-- Two characters that are not both underscores. -/
def Apart (c d : Char) : Prop :=
  ¬(c = '_' ∧ d = '_')

instance : DecidableRel Apart :=
  fun c d => inferInstanceAs (Decidable (¬(c = '_' ∧ d = '_')))

theorem isChain_apart_iff {t : Text} :
  t.IsChain Apart ↔ ¬['_', '_'] <:+: t
  := by
  constructor
  · rintro h ⟨front, back, rfl⟩
    have hpair := h.left_of_append.right_of_append
    rw [List.isChain_pair] at hpair
    exact hpair ⟨rfl, rfl⟩
  · intro h
    apply (List.isChain_isInfix t).imp
    rintro c d hpair ⟨rfl, rfl⟩
    exact h hpair

theorem shrinkFrom_skip (replacement : Text) (pieces : List Template.Piece) (skip : Nat)
    (t : Text) :
  shrinkFrom replacement pieces skip t = shrinkFrom replacement pieces 0 (t.drop skip)
  := by
  induction t generalizing skip with
  | nil => cases skip <;> rfl
  | cons c t ih =>
      cases skip with
      | zero => rfl
      | succ skip => rw [shrinkFrom, ih, List.drop_succ_cons]

/-- A run of underscores becomes one. -/
theorem shrinkFrom_underscore (t : Text) :
  shrinkFrom ['_'] [.literal '_'] 0 ('_' :: t) =
    '_' :: shrinkFrom ['_'] [.literal '_'] 0 (t.dropWhile (· == '_'))
  := by
  have hrun : takeRun? ['_'] ('_' :: t) =
      some ('_' :: t.takeWhile (· == '_'), t.dropWhile (· == '_')) := by
    simp [takeRun?, Text.dropPrefix?]
  have hparts := (List.takeWhile_append_dropWhile (p := (· == '_')) (l := t)).symm
  rw [shrinkFrom, hrun]
  dsimp only
  generalize t.takeWhile (· == '_') = run at hparts ⊢
  generalize t.dropWhile (· == '_') = rest at hparts ⊢
  subst hparts
  rw [List.length_append, Nat.add_sub_cancel, shrinkFrom_skip, List.drop_left]
  rfl

theorem shrinkFrom_of_ne {c : Char} (h : c ≠ '_') (t : Text) :
  shrinkFrom ['_'] [.literal '_'] 0 (c :: t) = c :: shrinkFrom ['_'] [.literal '_'] 0 t
  := by
  have hrun : takeRun? ['_'] (c :: t) = none := by
    simp [takeRun?, Text.dropPrefix?, h.symm]
  rw [shrinkFrom, hrun]

theorem shrinkFrom_eq_destutter (t : Text) :
  shrinkFrom ['_'] [.literal '_'] 0 t = t.destutter Apart
  := by
  cases t with
  | nil => rfl
  | cons c t =>
      rw [List.destutter_cons']
      induction t generalizing c with
      | nil =>
          by_cases hc : c = '_'
          · subst hc
            rfl
          · rw [shrinkFrom_of_ne hc]
            rfl
      | cons d t ih =>
          by_cases hc : c = '_'
          · subst hc
            by_cases hd : d = '_'
            · subst hd
              rw [List.destutter'_cons_neg _ (by simp [Apart]), ← ih, shrinkFrom_underscore,
                shrinkFrom_underscore, List.dropWhile_cons_of_pos (by rfl)]
            · rw [List.destutter'_cons_pos _ (by simp [Apart, hd]), ← ih, shrinkFrom_underscore,
                List.dropWhile_cons_of_neg (by simpa using hd)]
          · rw [List.destutter'_cons_pos _ (by simp [Apart, hc]), ← ih, shrinkFrom_of_ne hc]

theorem occursIn_singleton {c : Char} {t : Text} :
  occursIn [c] t ↔ c ∈ t
  := by
  induction t with
  | nil => simp [occursIn]
  | cons d t ih =>
      rw [occursIn, Bool.or_eq_true, ih, List.mem_cons]
      simp [Text.hasPrefix, Text.dropPrefix?]

theorem shrink_underscore (t : Text) :
  shrink ['_'] t = .ok (t.destutter Apart)
  := by
  have hpieces : Template.pieces ['_'] = .ok [.literal '_'] := rfl
  rw [shrink]
  split_ifs with hoccurs hempty
  · contradiction
  · rw [hpieces, ← shrinkFrom_eq_destutter]
    rfl
  · rw [List.destutter_of_isChain]
    rw [isChain_apart_iff]
    intro hpair
    apply hoccurs (occursIn_singleton.mpr (hpair.subset List.mem_cons_self))

/-! ### Underscores at the ends -/

/-- The text without the underscores at its ends. -/
def trimUnderscores (t : Text) : Text :=
  Text.dropEndWhile ['_'].contains (t.dropWhile ['_'].contains)

theorem prefix_trimUnderscores (t : Text) :
  trimUnderscores t <+: t.dropWhile ['_'].contains
  := List.rdropWhile_prefix _ _

theorem infix_trimUnderscores (t : Text) :
  trimUnderscores t <:+: t
  := (prefix_trimUnderscores t).isInfix.trans (List.dropWhile_suffix _).isInfix

theorem head?_dropWhile_ne (t : Text) :
  (t.dropWhile ['_'].contains).head? ≠ some '_'
  := by
  intro h
  have hhead := List.head?_dropWhile_not ['_'].contains t
  rw [h] at hhead
  contradiction

theorem head?_trimUnderscores_ne (t : Text) :
  (trimUnderscores t).head? ≠ some '_'
  := by
  intro h
  obtain ⟨rest, hrest⟩ := List.head?_eq_some_iff.mp h
  obtain ⟨back, hback⟩ := prefix_trimUnderscores t
  apply head?_dropWhile_ne t
  rw [← hback, hrest]
  rfl

theorem getLast?_trimUnderscores_ne (t : Text) :
  (trimUnderscores t).getLast? ≠ some '_'
  := by
  rw [trimUnderscores, Text.dropEndWhile, List.getLast?_reverse]
  apply head?_dropWhile_ne

theorem dropWhile_eq_self {t : Text} (h : t.head? ≠ some '_') :
  t.dropWhile ['_'].contains = t
  := by
  cases t with
  | nil => rfl
  | cons c t =>
      apply List.dropWhile_cons_of_neg
      simpa using h

theorem trimUnderscores_eq_self {t : Text} (hhead : t.head? ≠ some '_')
    (hlast : t.getLast? ≠ some '_') :
  trimUnderscores t = t
  := by
  rw [trimUnderscores, dropWhile_eq_self hhead, Text.dropEndWhile, dropWhile_eq_self,
    List.reverse_reverse]
  rwa [List.head?_reverse]

/-! ### Characters that are not safe -/

/-- The text with underscores in place of the characters that are not safe. -/
def replaceUnsafe (t : Text) : Text :=
  t.flatMap fun c => if isSafe c then [c] else ['_']

theorem safe_of_mem_replaceUnsafe {c : Char} {t : Text} (h : c ∈ replaceUnsafe t) :
  isSafe c
  := by
  obtain ⟨d, -, hc⟩ := List.mem_flatMap.mp h
  split_ifs at hc with hsafe
  · obtain rfl := List.mem_singleton.mp hc
    exact hsafe
  · obtain rfl := List.mem_singleton.mp hc
    decide

theorem replaceUnsafe_of_safe {t : Text} (h : ∀ c ∈ t, isSafe c) :
  replaceUnsafe t = t
  := by
  induction t with
  | nil => rfl
  | cons c t ih =>
      obtain ⟨hc, ht⟩ := List.forall_mem_cons.mp h
      rw [replaceUnsafe, List.flatMap_cons, if_pos hc, ← replaceUnsafe, ih ht]
      rfl

/-! ### Tidy texts -/

/-- A text as sanitizing leaves it: it is not empty, its characters are safe, no underscore
follows another one, and no underscore stands at its ends. -/
structure Tidy (t : Text) : Prop where
  ne_nil : t ≠ []
  safe : ∀ c ∈ t, isSafe c
  single : ¬['_', '_'] <:+: t
  head : t.head? ≠ some '_'
  last : t.getLast? ≠ some '_'

theorem tidy_unnamed : Tidy unnamed.toList := by
  have hlist : unnamed.toList = ['u', 'n', 'n', 'a', 'm', 'e', 'd'] := rfl
  rw [hlist]
  constructor
  · decide
  · exact Text.forall_mem_of_all (by decide)
  · decide
  · decide
  · decide

/-- What is left of a text that is sanitized. -/
def core (t : Text) : Text :=
  trimUnderscores ((replaceUnsafe t).destutter Apart)

theorem sanitize_eq (name : String) :
  sanitize "_" name =
    .ok (if (core name.toList).isEmpty then unnamed else String.ofList (core name.toList))
  := by
  rw [sanitize]
  split
  · rename_i hempty
    rw [String.isEmpty_iff] at hempty
    subst hempty
    rfl
  · have hshrink := shrink_underscore (replaceUnsafe name.toList)
    change (do
      let shrunk ← shrink ['_'] (replaceUnsafe name.toList)
      return if (trimUnderscores shrunk).isEmpty then unnamed
        else String.ofList (trimUnderscores shrunk)) = _
    rw [hshrink]
    rfl

theorem tidy_core {t : Text} (h : core t ≠ []) : Tidy (core t)
  where
  ne_nil := h
  safe := by
    intro c hc
    apply safe_of_mem_replaceUnsafe
    apply (List.destutter_sublist Apart _).subset ((infix_trimUnderscores _).subset hc)
  single := by
    intro hpair
    have hapart := isChain_apart_iff.mp (List.isChain_destutter Apart (replaceUnsafe t))
    exact hapart (hpair.trans (infix_trimUnderscores _))
  head := head?_trimUnderscores_ne _
  last := getLast?_trimUnderscores_ne _

theorem Tidy.core_eq {t : Text} (h : Tidy t) :
  core t = t
  := by
  rw [core, replaceUnsafe_of_safe h.safe,
    List.destutter_of_isChain Apart _ (isChain_apart_iff.mpr h.single),
    trimUnderscores_eq_self h.head h.last]

theorem safeName_eq (name : String) :
  sanitize "_" name = .ok (safeName name)
  := by
  rw [safeName, sanitize_eq]

/-- The name that stands for a contract is tidy. -/
theorem tidy_safeName (name : String) :
  Tidy (safeName name).toList
  := by
  have hname := safeName_eq name
  rw [sanitize_eq] at hname
  rw [← Except.ok.inj hname]
  split_ifs with hcore
  · exact tidy_unnamed
  · rw [String.toList_ofList]
    apply tidy_core
    simpa using hcore

/-- A safe character in front stays there, unless it is an underscore. -/
theorem head?_core {c : Char} (hc : isSafe c) (hne : c ≠ '_') (t : Text) :
  (core (c :: t)).head? = some c
  := by
  have hshrunk : (replaceUnsafe (c :: t)).destutter Apart =
      c :: shrinkFrom ['_'] [.literal '_'] 0 (replaceUnsafe t) := by
    rw [replaceUnsafe, List.flatMap_cons, if_pos hc, ← replaceUnsafe, List.singleton_append,
      ← shrinkFrom_eq_destutter, shrinkFrom_of_ne hne]
  rw [core, hshrunk]
  generalize shrinkFrom ['_'] [.literal '_'] 0 (replaceUnsafe t) = u
  have hprefix := prefix_trimUnderscores (c :: u)
  rw [dropWhile_eq_self (by simpa using hne)] at hprefix
  cases hcore : trimUnderscores (c :: u) with
  | nil =>
      rw [trimUnderscores, dropWhile_eq_self (by simpa using hne)] at hcore
      have hall := List.rdropWhile_eq_nil_iff.mp hcore c List.mem_cons_self
      exact absurd (by simpa using hall) hne
  | cons d v =>
      rw [hcore] at hprefix
      rw [(List.cons_prefix_cons.mp hprefix).1]
      rfl

theorem head?_safeName {name : String} {c : Char} (h : name.toList.head? = some c)
    (hc : isSafe c) (hne : c ≠ '_') :
  (safeName name).toList.head? = some c
  := by
  obtain ⟨t, ht⟩ := List.head?_eq_some_iff.mp h
  have hcore := head?_core hc hne t
  rw [← ht] at hcore
  have hname := safeName_eq name
  rw [sanitize_eq, if_neg] at hname
  · rw [← Except.ok.inj hname, String.toList_ofList, hcore]
  · intro hempty
    rw [List.isEmpty_iff.mp hempty] at hcore
    contradiction

theorem Tidy.sanitize_eq {name : String} (h : Tidy name.toList) :
  sanitize "_" name = .ok name
  := by
  rw [FileName.sanitize_eq, h.core_eq, if_neg (by simpa using h.ne_nil), String.ofList_toList]

end ContractInterface.FileName
