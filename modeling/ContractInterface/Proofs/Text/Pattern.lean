import ContractInterface.Proofs.Text.Run
import ContractInterface.Table

/-!
# Patterns

A pattern takes a beginning off a text, and in general it can do so in several ways: more than one
of its alternatives may fit, and a run of characters of a class may end early.  It tries the
alternatives in their order, a greedy run from its longest way on and a lazy one from its shortest.
`Pattern.readings` lists the ways in the order in which they are tried; a pattern matches a whole
text by the first one that leaves nothing over.

What a sequence finds in a text is found part by part: the first reading of a part counts from
whose rest the other parts can go on (`first?`).  A group between runs of blanks that has to end
at a given character is read in one way only (`first?_argument`), however many ways there are to
begin.

Two patterns have no text in common if the words with which their texts start exclude each other;
these words are known without looking at a text (`openings`).
-/

namespace ContractInterface

open Text

/-- A pattern for texts. -/
inductive Pattern where
  /-- One of some words, tried in order. -/
  | oneOf (words : List Text)
  /-- Characters of a class, not fewer than a given number: as many as possible, or as few. -/
  | run (greedy : Bool) (least : Nat) (p : Char → Bool)
  /-- What a pattern takes is kept under a name. -/
  | group (name : String) (inner : Pattern)
  /-- One pattern after the other. -/
  | seq (first second : Pattern)

namespace Pattern

/-- A way to take a beginning off a text. -/
structure Reading where
  /-- The beginning that is taken. -/
  taken : Text
  /-- What the groups hold. -/
  groups : Table Text
  /-- What follows the beginning. -/
  rest : Text
  deriving DecidableEq, Repr

/-- A reading of a text, and then one of its rest. -/
def Reading.andThen (r s : Reading) : Reading :=
  ⟨r.taken ++ s.taken, r.groups ++ s.groups, s.rest⟩

/-- The ways to take characters of a class off the front of a text, the shortest first. -/
def splits (p : Char → Bool) : Text → List (Text × Text)
  | [] => [([], [])]
  | c :: t => ([], c :: t) :: if p c then (splits p t).map (Prod.map (c :: ·) id) else []

/-- The ways to take a beginning off a text, in the order in which they are tried. -/
def readings : Pattern → Text → List Reading
  | oneOf words, t =>
    words.filterMap fun word => (dropPrefix? word t).map fun rest => ⟨word, [], rest⟩
  | run greedy least p, t =>
    let ways := ((splits p t).drop least).map fun (taken, rest) => ⟨taken, [], rest⟩
    if greedy then ways.reverse else ways
  | group name inner, t =>
    (inner.readings t).map fun r => { r with groups := (name, r.taken) :: r.groups }
  | seq first second, t =>
    (first.readings t).flatMap fun r => (second.readings r.rest).map r.andThen

/-- Matches a whole text, and gives what the groups hold then. -/
def fullMatch? (p : Pattern) (t : Text) : Option (Table Text) :=
  ((p.readings t).find? fun r => r.rest.isEmpty).map Reading.groups

/-- A fixed word. -/
def word (w : String) : Pattern :=
  oneOf [w.toList]

/-- Blanks, as many as possible. -/
def blanks : Pattern :=
  run true 0 isBlank

/-- A group of characters of a class, as few as possible but at least one. -/
def few (name : String) (p : Char → Bool) : Pattern :=
  group name (run false 1 p)

/-- Such a group with blanks around it. -/
def argument (name : String) (p : Char → Bool) : Pattern :=
  seq blanks (seq (few name p) blanks)

variable {p : Pattern} {t : Text} {r : Reading}

/-! ### Readings -/

theorem append_of_mem_splits {p : Char → Bool} {way : Text × Text} (h : way ∈ splits p t) :
  way.1 ++ way.2 = t
  := by
  induction t generalizing way with
  | nil =>
      obtain rfl := List.mem_singleton.mp h
      rfl
  | cons c t ih =>
      rcases List.mem_cons.mp h with rfl | h
      · rfl
      · split at h
        · obtain ⟨way', hway', rfl⟩ := List.mem_map.mp h
          exact congrArg (c :: ·) (ih hway')
        · contradiction

theorem mem_readings_run {greedy : Bool} {least : Nat} {p : Char → Bool} :
  r ∈ (run greedy least p).readings t ↔
    (r.taken, r.rest) ∈ (splits p t).drop least ∧ r.groups = []
  := by
  have hways : r ∈ (run greedy least p).readings t ↔
      r ∈ ((splits p t).drop least).map fun way => ⟨way.1, [], way.2⟩ := by
    cases greedy
    · rfl
    · exact List.mem_reverse
  rw [hways, List.mem_map]
  constructor
  · rintro ⟨way, hway, rfl⟩
    exact ⟨hway, rfl⟩
  · rintro ⟨hway, hgroups⟩
    exact ⟨_, hway, by rw [← hgroups]⟩

/-- A reading cuts the text in two. -/
theorem taken_append_rest (h : r ∈ p.readings t) :
  r.taken ++ r.rest = t
  := by
  induction p generalizing t r with
  | oneOf words =>
      obtain ⟨word, -, hword⟩ := List.mem_filterMap.mp h
      obtain ⟨rest, hrest, rfl⟩ := Option.map_eq_some_iff.mp hword
      exact (eq_append_of_dropPrefix? hrest).symm
  | run greedy least p =>
      exact append_of_mem_splits (List.mem_of_mem_drop (mem_readings_run.mp h).1)
  | group name inner ih =>
      obtain ⟨r', hr', rfl⟩ := List.mem_map.mp h
      change r'.taken ++ r'.rest = t
      exact ih hr'
  | seq first second ihfirst ihsecond =>
      obtain ⟨r₁, hr₁, h⟩ := List.mem_flatMap.mp h
      obtain ⟨r₂, hr₂, rfl⟩ := List.mem_map.mp h
      rw [← ihfirst hr₁, ← ihsecond hr₂]
      apply List.append_assoc

/-! ### Reading on -/

/-- The groups of the first reading whose rest can be read on, with those that are read then. -/
def first? (p : Pattern) (t : Text) (k : Text → Option (Table Text)) : Option (Table Text) :=
  (p.readings t).findSome? fun r => (k r.rest).map (r.groups ++ ·)

/-- It can be read on from one place only, and what is found there. -/
def only (place : Text) (found : Option (Table Text)) (t : Text) : Option (Table Text) :=
  if t = place then found else none

variable {k k' : Text → Option (Table Text)}

theorem fullMatch?_eq_first? (p : Pattern) (t : Text) :
  p.fullMatch? t = p.first? t (only [] (some []))
  := by
  rw [fullMatch?, first?]
  induction p.readings t with
  | nil => rfl
  | cons r rs ih =>
      rw [List.findSome?_cons, List.find?_cons, ← ih]
      cases hrest : r.rest with
      | nil => simp [only]
      | cons c rest => simp [only]

/-- Only the ends of a text are read on. -/
theorem first?_congr (h : ∀ rest, rest <:+ t → k rest = k' rest) :
  p.first? t k = p.first? t k'
  := by
  rw [first?, first?, ← List.head?_filterMap, ← List.head?_filterMap]
  apply congrArg List.head?
  apply List.filterMap_congr
  intro r hr
  rw [h r.rest ⟨r.taken, taken_append_rest hr⟩]

theorem findSome?_flatMap {α β γ : Type} (f : β → Option γ) (g : α → List β) (l : List α) :
  (l.flatMap g).findSome? f = l.findSome? fun a => (g a).findSome? f
  := by
  simp only [← List.head?_filterMap, List.filterMap_flatMap, List.head?_flatMap]

theorem first?_none (p : Pattern) (t : Text) :
  (p.first? t fun _ => none) = none
  := by
  simp [first?]

theorem first?_seq (p q : Pattern) (t : Text) (k : Text → Option (Table Text)) :
  (p.seq q).first? t k = p.first? t fun rest => q.first? rest k
  := by
  rw [first?, readings, findSome?_flatMap, first?]
  apply congrArg (List.findSome? · _)
  funext r
  rw [List.findSome?_map, first?, List.map_findSome?]
  apply congrArg (List.findSome? · _)
  funext s
  simp [Reading.andThen, Function.comp_def]

theorem first?_oneOf (words : List Text) (t : Text) (k : Text → Option (Table Text)) :
  (oneOf words).first? t k = words.findSome? fun word => (dropPrefix? word t).bind k
  := by
  rw [first?, readings, ← List.head?_filterMap, List.filterMap_filterMap, List.head?_filterMap]
  apply congrArg (List.findSome? · _)
  funext word
  cases dropPrefix? word t <;> simp

theorem first?_group_oneOf (name : String) (words : List Text) (t : Text)
    (k : Text → Option (Table Text)) :
  (group name (oneOf words)).first? t k =
    words.findSome? fun word =>
      (dropPrefix? word t).bind fun rest => (k rest).map ((name, word) :: ·)
  := by
  rw [first?, readings, readings, List.findSome?_map, ← List.head?_filterMap,
    List.filterMap_filterMap, List.head?_filterMap]
  apply congrArg (List.findSome? · _)
  funext word
  cases dropPrefix? word t <;> simp

theorem first?_word (w : String) (t : Text) (k : Text → Option (Table Text)) :
  (word w).first? t k = (dropPrefix? w.toList t).bind k
  := by
  simp [word, first?_oneOf]

/-- A word in front of the only place from which it can be read on is the only such place. -/
theorem bind_only (w place : Text) (found : Option (Table Text)) (t : Text) :
  (dropPrefix? w t).bind (only place found) = only (w ++ place) found t
  := by
  rw [only]
  split
  · rename_i h
    rw [h, dropPrefix?_append, Option.bind_some, only, if_pos rfl]
  · rename_i h
    rw [Option.bind_eq_none_iff]
    intro rest hrest
    rw [only, if_neg]
    rintro rfl
    exact h (eq_append_of_dropPrefix? hrest)

theorem findSome?_only (words : List Text) (found : Option (Table Text)) (t : Text) :
  (words.findSome? fun word => only word found t) = if t ∈ words then found else none
  := by
  induction words with
  | nil => rfl
  | cons word words ih =>
      rw [List.findSome?_cons, ih, only]
      by_cases h : t = word
      · cases found <;> simp [h]
      · simp [h]

/-- A pattern of words matches these. -/
theorem fullMatch?_oneOf (words : List Text) (t : Text) :
  (oneOf words).fullMatch? t = if t ∈ words then some [] else none
  := by
  rw [fullMatch?_eq_first?, first?_oneOf, ← findSome?_only]
  simp only [bind_only, List.append_nil]

/-! ### Groups at the end -/

theorem mem_drop_splits {p : Char → Bool} {least : Nat} :
  (t, []) ∈ (splits p t).drop least ↔ least ≤ t.length ∧ t.all p
  := by
  have hcons (c : Char) (t : Text) (ways : List (Text × Text)) :
      (c :: t, ([] : Text)) ∈ ways.map (Prod.map (c :: ·) id) ↔ (t, []) ∈ ways := by
    simp [Prod.map]
  induction t generalizing least with
  | nil => cases least <;> simp [splits]
  | cons c t ih =>
      cases least with
      | zero =>
          have htail : (t, []) ∈ (splits p t).drop 0 ↔ 0 ≤ t.length ∧ t.all p := ih
          by_cases hc : p c
          · simpa [splits, hc, hcons] using htail
          · simp [splits, hc]
      | succ least =>
          by_cases hc : p c
          · rw [splits, List.drop_succ_cons, if_pos hc, ← List.map_drop, hcons]
            simp [hc, ih]
          · simp [splits, hc]

/-- A group of characters of a class that has to reach the end of the text holds the whole text,
whether it is greedy or lazy. -/
theorem fullMatch?_group_run (name : String) (greedy : Bool) (least : Nat) (p : Char → Bool)
    (t : Text) :
  (group name (run greedy least p)).fullMatch? t =
    if least ≤ t.length ∧ t.all p then some [(name, t)] else none
  := by
  rw [fullMatch?]
  split
  · rename_i h
    have hrun : ⟨t, [], []⟩ ∈ (run greedy least p).readings t :=
      mem_readings_run.mpr ⟨mem_drop_splits.mpr h, rfl⟩
    obtain ⟨r, hfirst⟩ : ∃ r, ((group name (run greedy least p)).readings t).find?
        (fun r => r.rest.isEmpty) = some r := by
      rw [← Option.isSome_iff_exists, List.find?_isSome]
      exact ⟨_, List.mem_map_of_mem hrun, rfl⟩
    have hrest : r.rest = [] := by simpa using List.find?_some hfirst
    have htaken := taken_append_rest (List.mem_of_find?_eq_some hfirst)
    rw [hrest, List.append_nil] at htaken
    obtain ⟨r', hr', rfl⟩ := List.mem_map.mp (List.mem_of_find?_eq_some hfirst)
    rw [hfirst, Option.map_some, (mem_readings_run.mp hr').2, ← htaken]
  · rename_i h
    rw [Option.map_eq_none_iff, List.find?_eq_none]
    intro r hr hrest
    obtain ⟨r', hr', rfl⟩ := List.mem_map.mp hr
    have hway := (mem_readings_run.mp hr').1
    have htaken := taken_append_rest hr'
    rw [List.isEmpty_iff.mp hrest] at hway htaken
    rw [List.append_nil] at htaken
    rw [htaken] at hway
    exact h (mem_drop_splits.mp hway)

/-! ### Blanks -/

/-- Blanks are taken as far as possible, and one less only if it cannot be read on otherwise. -/
theorem first?_blanks_cons (c : Char) (t : Text) (k : Text → Option (Table Text)) :
  blanks.first? (c :: t) k = if isBlank c then (blanks.first? t k).or (k (c :: t)) else k (c :: t)
  := by
  have hgroups (o : Option (Table Text)) : o.map (([] : Table Text) ++ ·) = o := by simp
  simp only [first?, blanks, readings, splits, List.drop_zero, List.map_cons, List.reverse_cons,
    List.findSome?_append, List.findSome?_singleton, if_true, hgroups]
  split
  · congr 1
    rw [List.map_map, ← List.map_reverse, ← List.map_reverse, List.findSome?_map,
      List.findSome?_map]
    rfl
  · rfl

/-- All blanks are taken if it cannot be read on from a blank. -/
theorem first?_blanks (h : ∀ c rest, isBlank c → k (c :: rest) = none) (t : Text) :
  blanks.first? t k = k (trimLeft t)
  := by
  induction t with
  | nil => simp [first?, blanks, readings, splits, trimLeft]
  | cons c t ih =>
      rw [first?_blanks_cons]
      split
      · rename_i hc
        rw [ih, h c t hc, Option.or_none, trimLeft_cons_blank hc]
      · rename_i hc
        rw [trimLeft_cons_solid (by simpa using hc)]

/-- All blanks are taken in front of a word. -/
theorem first?_blanks_word {c : Char} (hc : isBlank c = false) (w t : Text)
    (k : Text → Option (Table Text)) :
  blanks.first? t (fun u => (dropPrefix? (c :: w) u).bind k) =
    (dropPrefix? (c :: w) (trimLeft t)).bind k
  := by
  apply first?_blanks
  intro d rest hd
  rw [Option.bind_eq_none_iff]
  intro u hu
  obtain ⟨rfl, -⟩ := List.cons.inj (eq_append_of_dropPrefix? hu)
  simp [hc] at hd

/-! ### Groups between blanks -/

theorem first?_few (name : String) (p : Char → Bool) (t : Text) (k : Text → Option (Table Text)) :
  (few name p).first? t k =
    ((splits p t).drop 1).findSome? fun way => (k way.2).map ((name, way.1) :: ·)
  := by
  simp only [first?, few, readings, Bool.false_eq_true, if_false, List.findSome?_map]
  rfl

/-- What a group of characters of a class holds that has blanks around it: the text without the
blanks, and of a text of blanks alone the last one of the class. -/
def argument? (p : Char → Bool) (t : Text) : Option Text :=
  if trim t = [] then (t.reverse.find? p).map ([·])
  else if (trim t).all p then some (trim t)
  else none

/-- A group with a blank in front of it is looked for behind the blank at first. -/
theorem argument?_cons (p : Char → Bool) (d : Char) (t : Text) :
  argument? p (d :: t) =
    let whole := if p d && (trimRight t).all p then some (d :: trimRight t) else none
    if isBlank d then (argument? p t).or whole else whole
  := by
  dsimp only
  split
  · rename_i hd
    have htrim : trim (d :: t) = trim t := by rw [trim, trimLeft_cons_blank hd, ← trim]
    rw [argument?, argument?, htrim]
    split
    · rename_i hnil
      have hright : trimRight t = [] := List.rdropWhile_eq_nil_iff.mpr (trim_eq_nil_iff.mp hnil)
      rw [List.reverse_cons, List.find?_append, Option.map_or, hright]
      congr 1
      by_cases hp : p d
      · simp [hp]
      · simp [hp]
    · split
      · rfl
      · rename_i hall
        have hright : ¬ (trimRight t).all p := by
          rw [List.all_eq_true] at hall ⊢
          exact fun h => hall fun c hc => h c (subset_trimRight t hc)
        simp [hright]
  · rename_i hd
    rw [argument?, trim_cons_solid (by simpa using hd), if_neg (List.cons_ne_nil _ _),
      List.all_cons]

section Argument

variable {p : Char → Bool} {c : Char} (hc : isBlank c = false) {rest : Text}

include hc

/-- Blanks in front of the only place from which it can be read on do not change it. -/
theorem first?_blanks_only (found : Option (Table Text)) (t : Text) :
  blanks.first? t (only (c :: rest) found) = only (c :: rest) found (trimLeft t)
  := by
  apply first?_blanks
  intro d rest' hd
  rw [only, if_neg]
  rintro ⟨⟩
  simp [hc] at hd

/-- The ways to take characters of a class so that only blanks are left before a place: the
shortest one takes all but the blanks. -/
theorem findSome?_splits (f : Text → Table Text) (t : Text) :
  (splits p (t ++ c :: rest)).findSome?
      (fun way => if trimLeft way.2 = c :: rest then some (f way.1) else none) =
    if (trimRight t).all p then some (f (trimRight t)) else none
  := by
  -- The shorter ways leave something before the place that is not blank, unless all of it is blank.
  induction t generalizing f with
  | nil => simp [splits, trimLeft_cons_solid hc, trimRight, dropEndWhile]
  | cons d t ih =>
      have hplace : trimLeft (d :: t ++ c :: rest) = c :: rest ↔ trimRight (d :: t) = [] := by
        rw [trimLeft_append_solid hc, List.append_left_eq_self, trimLeft, List.dropWhile_eq_nil_iff]
        exact List.rdropWhile_eq_nil_iff.symm
      rw [List.cons_append, splits, ← List.cons_append, List.findSome?_cons]
      by_cases hblank : trimRight (d :: t) = []
      · simp only [hplace.mpr hblank, hblank, if_true, List.all_nil]
      · rw [if_neg (mt hplace.mp hblank), trimRight_cons hblank]
        by_cases hd : p d
        · rw [if_pos hd, List.findSome?_map]
          have htail := ih fun taken => f (d :: taken)
          simpa [Function.comp_def, hd] using htail
        · simp [hd]

/-- A lazy group takes at least one character, whatever it is, and then all but the blanks. -/
theorem first?_few_cons (name : String) (d : Char) (t : Text) (found : Table Text) :
  (few name p).first? (d :: t ++ c :: rest) (fun u => only (c :: rest) (some found) (trimLeft u)) =
    if p d && (trimRight t).all p then some ((name, d :: trimRight t) :: found) else none
  := by
  rw [first?_few]
  simp only [only, Option.map_if]
  rw [List.cons_append, splits, List.drop_succ_cons, List.drop_zero]
  by_cases hd : p d
  · rw [if_pos hd, List.findSome?_map, hd, Bool.true_and]
    apply findSome?_splits hc fun taken => (name, d :: taken) :: found
  · simp [hd]

omit hc in
/-- A lazy group takes too much if it starts at the place that has to be reached. -/
theorem first?_few_place (name : String) (found : Table Text) :
  (few name p).first? (c :: rest) (fun u => only (c :: rest) (some found) (trimLeft u)) = none
  := by
  rw [first?_few, List.findSome?_eq_none_iff, splits, List.drop_succ_cons, List.drop_zero]
  intro way hway
  have hlength : way.2.length ≤ rest.length := by
    split at hway
    · obtain ⟨way', hway', rfl⟩ := List.mem_map.mp hway
      have happend := congrArg List.length (append_of_mem_splits hway')
      rw [List.length_append] at happend
      exact Nat.le.intro ((Nat.add_comm _ _).trans happend)
    · contradiction
  rw [only, if_neg, Option.map_none]
  intro hplace
  have htrim := (List.dropWhile_suffix isBlank (l := way.2)).length_le
  rw [← trimLeft, hplace, List.length_cons] at htrim
  omega

/-- What is found in an argument that ends where it can be read on. -/
theorem first?_argument (name : String) (found : Option (Table Text)) (t : Text) :
  (argument name p).first? (t ++ c :: rest) (only (c :: rest) found) =
    (argument? p t).bind fun inner => found.map ((name, inner) :: ·)
  := by
  rw [argument, first?_seq]
  simp only [first?_seq, first?_blanks_only hc]
  cases found with
  | none => simp [only, first?_none]
  | some found =>
      -- The blanks in front are given back one by one, so the group that starts furthest behind
      -- comes first: by induction it is looked for behind the first character of the text.
      induction t with
      | nil =>
          rw [List.nil_append, first?_blanks_cons, if_neg (by simp [hc]), first?_few_place]
          rfl
      | cons d t ih =>
          rw [List.cons_append, first?_blanks_cons, ih, ← List.cons_append, first?_few_cons hc,
            argument?_cons]
          have hmap (o : Option Text) :
              (o.bind fun inner => (some found).map ((name, inner) :: ·)) =
                o.map fun inner => (name, inner) :: found := by cases o <;> rfl
          simp only [hmap]
          split
          · rw [Option.map_or, apply_ite (Option.map _)]
            rfl
          · rw [apply_ite (Option.map _)]
            rfl

/-- A word is taken in front of a place if only blanks are between them. -/
theorem bind_word_blanks {w : Text} (hw : trimRight w = w) (found : Option (Table Text))
    (t : Text) :
  ((dropPrefix? w (t ++ c :: rest)).bind fun u => only (c :: rest) found (trimLeft u)) =
    only w found (trimRight t)
  := by
  rw [only]
  split
  · rename_i h
    have hblanks : ∀ d ∈ (t.reverse.takeWhile isBlank).reverse, isBlank d :=
      fun d hd => List.mem_takeWhile_imp (List.mem_reverse.mp hd)
    have ht : t = w ++ (t.reverse.takeWhile isBlank).reverse := by
      rw [← h, trimRight, dropEndWhile, ← List.reverse_append, List.takeWhile_append_dropWhile,
        List.reverse_reverse]
    rw [ht, List.append_assoc, dropPrefix?_append, Option.bind_some, trimLeft_append_solid hc,
      trimLeft, List.dropWhile_eq_nil_iff.mpr hblanks, List.nil_append, only, if_pos rfl]
  · rename_i h
    rw [Option.bind_eq_none_iff]
    intro u hu
    rw [only, if_neg]
    intro hplace
    apply h
    have ht := eq_append_of_dropPrefix? hu
    rw [← List.takeWhile_append_dropWhile (p := isBlank) (l := u), ← trimLeft, hplace,
      ← List.append_assoc] at ht
    rw [List.append_cancel_right ht, trimRight_append_blank fun _ => List.mem_takeWhile_imp, hw]

/-- Which of some words is found between blanks that end where it can be read on. -/
theorem first?_words {words : List Text} (hwords : ∀ w ∈ words, w ≠ [] ∧ trim w = w)
    (found : Option (Table Text)) (t : Text) :
  (seq blanks (seq (oneOf words) blanks)).first? (t ++ c :: rest) (only (c :: rest) found) =
    if trim t ∈ words then found else none
  := by
  rw [first?_seq]
  simp only [first?_seq, first?_blanks_only hc, first?_oneOf]
  rw [first?_blanks, trimLeft_append_solid hc, trim, ← findSome?_only, ← List.head?_filterMap,
    ← List.head?_filterMap]
  · apply congrArg List.head?
    apply List.filterMap_congr
    intro w hw
    obtain ⟨d, u, rfl, -, hright⟩ := exists_cons_of_trim (hwords w hw).1 (hwords w hw).2
    exact bind_word_blanks hc hright found _
  · intro d u hd
    rw [List.findSome?_eq_none_iff]
    intro w hw
    obtain ⟨e, v, rfl, he, -⟩ := exists_cons_of_trim (hwords w hw).1 (hwords w hw).2
    have hne : e ≠ d := by
      rintro rfl
      simp [hd] at he
    rw [dropPrefix?, if_neg hne, Option.bind_none]

end Argument

/-! ### Openings -/

/-- A word with which texts start, and whether they also end with it. -/
structure Opening where
  word : Text
  whole : Bool

namespace Opening

/-- A text starts with the word, or is the word. -/
def Opens (o : Opening) (t : Text) : Prop :=
  o.word <+: t ∧ (o.whole → t = o.word)

/-- The word of an opening is a beginning of the word of another one, and the same word if the texts
end with it. -/
def Reaches (o o' : Opening) : Prop :=
  o.word <+: o'.word ∧ (o.whole → o'.word = o.word)

instance (o o' : Opening) : Decidable (o.Reaches o') :=
  inferInstanceAs (Decidable (_ ∧ _))

/-- Of two openings of a text one reaches the other. -/
theorem Opens.reaches {o o' : Opening} {t : Text} (h : o.Opens t) (h' : o'.Opens t) :
  o.Reaches o' ∨ o'.Reaches o
  := by
  obtain ⟨hword, hwhole⟩ := h
  obtain ⟨hword', hwhole'⟩ := h'
  rcases List.prefix_or_prefix_of_prefix hword hword' with hle | hle
  · left
    refine ⟨hle, fun ho => ?_⟩
    rw [hwhole ho] at hword'
    exact hword'.eq_of_length_le hle.length_le
  · right
    refine ⟨hle, fun ho => ?_⟩
    rw [hwhole' ho] at hword
    exact hword.eq_of_length_le hle.length_le

/-- The openings of texts that go on with others behind the word, if they end with it so far. -/
def extend (o : Opening) (others : List Opening) : List Opening :=
  if o.whole then others.map fun o' => ⟨o.word ++ o'.word, o'.whole⟩ else [o]

theorem Opens.extend {o : Opening} {t u : Text} (h : o.Opens t) {others : List Opening}
    (hothers : ∃ o' ∈ others, o'.Opens u) :
  ∃ o' ∈ o.extend others, o'.Opens (t ++ u)
  := by
  obtain ⟨hword, hwhole⟩ := h
  by_cases ho : o.whole
  · obtain ⟨o', hmem, hword', hwhole'⟩ := hothers
    obtain rfl := hwhole ho
    rw [Opening.extend, if_pos ho]
    refine ⟨_, List.mem_map_of_mem hmem, (List.prefix_append_right_inj _).mpr hword', ?_⟩
    intro hwhole
    rw [hwhole' hwhole]
  · rw [Opening.extend, if_neg ho]
    exact ⟨o, List.mem_singleton_self o, hword.trans (List.prefix_append t u),
      fun h => absurd h ho⟩

end Opening

/-- The words with which the texts start that a pattern takes. -/
def openings : Pattern → List Opening
  | oneOf words => words.map fun word => ⟨word, true⟩
  | run _ _ _ => [⟨[], false⟩]
  | group _ inner => inner.openings
  | seq first second => first.openings.flatMap fun o => o.extend second.openings

theorem exists_opening (h : r ∈ p.readings t) :
  ∃ o ∈ p.openings, o.Opens r.taken
  := by
  induction p generalizing t r with
  | oneOf words =>
      obtain ⟨word, hmem, hword⟩ := List.mem_filterMap.mp h
      obtain ⟨rest, -, rfl⟩ := Option.map_eq_some_iff.mp hword
      exact ⟨⟨word, true⟩, List.mem_map_of_mem hmem, List.prefix_rfl, fun _ => rfl⟩
  | run greedy least p =>
      exact ⟨⟨[], false⟩, List.mem_singleton_self _, List.nil_prefix, by simp⟩
  | group name inner ih =>
      obtain ⟨r', hr', rfl⟩ := List.mem_map.mp h
      change ∃ o ∈ inner.openings, o.Opens r'.taken
      exact ih hr'
  | seq first second ihfirst ihsecond =>
      obtain ⟨r₁, hr₁, h⟩ := List.mem_flatMap.mp h
      obtain ⟨r₂, hr₂, rfl⟩ := List.mem_map.mp h
      obtain ⟨o, ho, hopens⟩ := ihfirst hr₁
      obtain ⟨o', ho', hopens'⟩ := hopens.extend (ihsecond hr₂)
      exact ⟨o', List.mem_flatMap.mpr ⟨o, ho, ho'⟩, hopens'⟩

/-- No opening of one pattern reaches one of the other, or is reached by it. -/
def Apart (p q : Pattern) : Prop :=
  ∀ o ∈ p.openings, ∀ o' ∈ q.openings, ¬ (o.Reaches o' ∨ o'.Reaches o)

instance (p q : Pattern) : Decidable (p.Apart q) :=
  inferInstanceAs (Decidable (∀ _ ∈ _, _))

theorem exists_reading_of_fullMatch? (h : (p.fullMatch? t).isSome) :
  ∃ r ∈ p.readings t, r.taken = t
  := by
  rw [fullMatch?, Option.isSome_map, List.find?_isSome] at h
  obtain ⟨r, hr, hrest⟩ := h
  have htaken := taken_append_rest hr
  rw [List.isEmpty_iff.mp hrest, List.append_nil] at htaken
  exact ⟨r, hr, htaken⟩

/-- No text is matched by two patterns that are apart. -/
theorem Apart.fullMatch?_eq_none {q : Pattern} (h : p.Apart q) (hp : (p.fullMatch? t).isSome) :
  q.fullMatch? t = none
  := by
  rw [← Option.not_isSome_iff_eq_none]
  intro hq
  obtain ⟨r, hr, htaken⟩ := exists_reading_of_fullMatch? hp
  obtain ⟨r', hr', htaken'⟩ := exists_reading_of_fullMatch? hq
  obtain ⟨o, ho, hopens⟩ := exists_opening hr
  obtain ⟨o', ho', hopens'⟩ := exists_opening hr'
  rw [htaken] at hopens
  rw [htaken'] at hopens'
  exact h o ho o' ho' (hopens.reaches hopens')

end Pattern

end ContractInterface
