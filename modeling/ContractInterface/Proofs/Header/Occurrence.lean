import ContractInterface.Proofs.Expr.Token
import ContractInterface.Proofs.Header.Registration
import ContractInterface.Proofs.Text.Run
import ContractInterface.Proofs.Text.Scan

/-!
# Where entries are registered

A registration is a piece of the source: the name of its macro, and in parentheses a name and a
number, with a semicolon at the end; blanks may stand between them.  The matcher for a kind
recognises exactly these pieces.  The only opening parenthesis of a piece comes right after the
name of the macro, so no piece starts inside of another one of the same kind, and every
registration in a source is found.
-/

namespace ContractInterface

theorem isBlank_of_isDecimal {c : Char} (h : isDecimal c) :
  isBlank c = false
  := by
  by_contra hblank
  rw [isDecimal_of_isBlank (by simpa using hblank)] at h
  contradiction

namespace Text

/-- A run of blanks, which may be empty. -/
def Blanks (t : Text) : Prop := ∀ c ∈ t, isBlank c

instance (t : Text) : Decidable (Blanks t) :=
  decidable_of_iff (t.all isBlank) List.all_eq_true

theorem exists_blanks_append_trimLeft (t : Text) :
  ∃ blanks, Blanks blanks ∧ t = blanks ++ trimLeft t
  := ⟨t.takeWhile isBlank, fun _ => List.mem_takeWhile_imp, List.takeWhile_append_dropWhile.symm⟩

/-- Blanks in front are dropped up to a character that is not blank. -/
theorem trimLeft_append_blanks {blanks t : Text} (h : Blanks blanks)
    (ht : ∀ c ∈ t.head?, isBlank c = false) :
  trimLeft (blanks ++ t) = t
  := (takeWhile_append_all h ht).2

theorem not_mem_of_blanks {blanks : Text} (h : Blanks blanks) {c : Char} (hc : isBlank c = false) :
  c ∉ blanks
  := by
  intro hmem
  rw [h c hmem] at hc
  contradiction

/-- A run of characters of a class without blanks ends where blanks and a mark follow. -/
theorem head?_append_blanks {p : Char → Bool} (hp : ∀ c, isBlank c → p c = false) {blanks : Text}
    (h : Blanks blanks) (mark : Char) (hmark : p mark = false) (t : Text) :
  ∀ c ∈ (blanks ++ mark :: t).head?, p c = false
  := by
  cases blanks with
  | nil =>
      rintro c ⟨⟩
      exact hmark
  | cons b blanks =>
      rintro c ⟨⟩
      exact hp b (h b List.mem_cons_self)

/-- Blanks in front of a word are dropped. -/
theorem trimLeft_append_word {blanks word : Text} (h : Blanks blanks) (hne : word ≠ [])
    (hword : ∀ c ∈ word, isBlank c = false) (t : Text) :
  trimLeft (blanks ++ (word ++ t)) = word ++ t
  := by
  apply trimLeft_append_blanks h
  cases word with
  | nil => contradiction
  | cons c word =>
      rintro _ ⟨⟩
      exact hword c List.mem_cons_self

theorem startsWord_eq_false {t : Text} (h : ∀ c ∈ t.head?, isWord c = false) :
  t.startsWord = false
  := by
  cases t with
  | nil => rfl
  | cons c t => exact h c rfl

theorem append_of_takeIdent? {t name rest : Text} (h : takeIdent? t = some (name, rest)) :
  t = name ++ rest
  := by
  cases t with
  | nil => contradiction
  | cons c t =>
      simp only [takeIdent?, Option.ite_none_right_eq_some, Option.some.injEq, Prod.mk.injEq] at h
      obtain ⟨-, rfl, rfl⟩ := h
      rw [List.cons_append, List.takeWhile_append_dropWhile]

end Text

namespace Registration

open Text

variable {kind : EntryKind} {name digits piece t rest : Text}

/-! ### Pieces -/

/-- The text of a registration of a kind with a name and the digits of a number. -/
structure Spelled (kind : EntryKind) (name digits piece : Text) : Prop where
  isIdent : isIdent name
  nonempty : digits ≠ []
  decimal : ∀ c ∈ digits, isDecimal c
  parts : ∃ b₁ b₂ b₃ b₄ b₅ b₆ : Text,
    (Blanks b₁ ∧ Blanks b₂ ∧ Blanks b₃ ∧ Blanks b₄ ∧ Blanks b₅ ∧ Blanks b₆) ∧
    piece = kind.macroName.toList ++ b₁ ++ ['('] ++ b₂ ++ name ++ b₃ ++ [','] ++ b₄ ++ digits ++
      b₅ ++ [')'] ++ b₆ ++ [';']

theorem afterMark?_eq_some_iff {c : Char} (hc : isBlank c = false) :
  afterMark? c t = some rest ↔ ∃ blanks, Blanks blanks ∧ t = blanks ++ c :: rest
  := by
  constructor
  · intro h
    obtain ⟨blanks, hblanks, ht⟩ := exists_blanks_append_trimLeft t
    rw [eq_append_of_dropPrefix? h] at ht
    exact ⟨blanks, hblanks, ht⟩
  · rintro ⟨blanks, hblanks, rfl⟩
    have htrim : trimLeft (blanks ++ c :: rest) = c :: rest := by
      apply trimLeft_append_blanks hblanks
      rintro _ ⟨⟩
      exact hc
    rw [afterMark?, htrim]
    apply dropPrefix?_append [c]

/-- What the matcher recognises is the text of a registration. -/
theorem spelled_of_matcher {before : Option Char}
    (h : matcher kind before t = some ((name, digits), rest)) :
  ∃ piece, t = piece ++ rest ∧ Spelled kind name digits piece
  := by
  simp only [matcher, Option.bind_eq_bind, Option.bind_eq_some_iff] at h
  obtain ⟨t₁, hmacroName, t₂, hopen, ⟨ident, t₃⟩, hident, t₄, hcomma, h⟩ := h
  split at h
  · contradiction
  · rename_i hempty
    simp only [Option.bind_eq_some_iff, Option.some.injEq, Prod.mk.injEq] at h
    obtain ⟨t₅, hclose, t₆, hend, ⟨rfl, rfl⟩, rfl⟩ := h
    obtain ⟨b₁, h₁, rfl⟩ := (afterMark?_eq_some_iff rfl).mp hopen
    obtain ⟨b₃, h₃, rfl⟩ := (afterMark?_eq_some_iff rfl).mp hcomma
    obtain ⟨b₅, h₅, hdigits⟩ := (afterMark?_eq_some_iff rfl).mp hclose
    obtain ⟨b₆, h₆, rfl⟩ := (afterMark?_eq_some_iff rfl).mp hend
    obtain ⟨b₂, h₂, ht₂⟩ := exists_blanks_append_trimLeft t₂
    obtain ⟨b₄, h₄, ht₄⟩ := exists_blanks_append_trimLeft t₄
    have hdecimal : ∀ c ∈ (trimLeft t₄).takeWhile isDecimal, isDecimal c :=
      fun _ => List.mem_takeWhile_imp
    rw [append_of_takeIdent? hident] at ht₂
    rw [← List.takeWhile_append_dropWhile (l := trimLeft t₄), hdigits] at ht₄
    generalize (trimLeft t₄).takeWhile isDecimal = digits at hempty hdecimal ht₄ ⊢
    refine ⟨_, ?_, isIdent_of_takeIdent? hident, by simpa using hempty, hdecimal, b₁, b₂, b₃, b₄,
      b₅, b₆, ⟨h₁, h₂, h₃, h₄, h₅, h₆⟩, rfl⟩
    rw [eq_append_of_dropPrefix? hmacroName, ht₂, ht₄]
    simp

/-- The matcher recognises the text of a registration, whatever follows it. -/
theorem matcher_of_spelled (h : Spelled kind name digits piece) (before : Option Char)
    (rest : Text) :
  matcher kind before (piece ++ rest) = some ((name, digits), rest)
  := by
  obtain ⟨hname, hne, hdigits, b₁, b₂, b₃, b₄, b₅, b₆, ⟨h₁, h₂, h₃, h₄, h₅, h₆⟩, hpiece⟩ := h
  have hmark {c : Char} (hc : isBlank c = false) {b : Text} (hb : Blanks b) (t : Text) :
      afterMark? c (b ++ c :: t) = some t := (afterMark?_eq_some_iff hc).mpr ⟨b, hb, rfl⟩
  have hident (t : Text) : takeIdent? (trimLeft (b₂ ++ (name ++ (b₃ ++ ',' :: t)))) =
      some (name, b₃ ++ ',' :: t) := by
    rw [trimLeft_append_word h₂ (ne_nil_of_isIdent hname) (solid_of_isIdent hname)]
    apply takeIdent?_append hname
    apply startsWord_eq_false
    apply head?_append_blanks (fun _ => isWord_of_isBlank) h₃ ',' rfl
  have hsolid : ∀ c ∈ digits, isBlank c = false :=
    fun c hc => isBlank_of_isDecimal (hdigits c hc)
  have hnumber (t : Text) := trimLeft_append_word h₄ hne hsolid (b₅ ++ ')' :: t)
  have hdecimal (t : Text) := takeWhile_append_all hdigits
    (head?_append_blanks (fun _ => isDecimal_of_isBlank) h₅ ')' rfl t)
  simp only [hpiece, List.append_assoc, List.cons_append, List.nil_append]
  rw [matcher]
  simp only [dropPrefix?_append, @hmark '(' rfl b₁ h₁, hident, @hmark ',' rfl b₃ h₃, hnumber,
    hdecimal, @hmark ')' rfl b₅ h₅, @hmark ';' rfl b₆ h₆, Option.bind_eq_bind, Option.bind_some]
  simp [hne]

/-! ### Pieces do not overlap -/

/-- What precedes the opening parenthesis of a piece. -/
def Opening (kind : EntryKind) (head : Text) : Prop :=
  ∃ blanks, Blanks blanks ∧ head = kind.macroName.toList ++ blanks

namespace Opening

variable {head : Text}

theorem exists_cons (h : Opening kind head) :
  ∃ t, head = 'R' :: t
  := by
  obtain ⟨blanks, -, rfl⟩ := h
  cases kind with
  | function => exact ⟨_, rfl⟩
  | procedure => exact ⟨_, rfl⟩

theorem not_mem (h : Opening kind head) {c : Char} (hword : isWord c = false)
    (hblank : isBlank c = false) :
  c ∉ head
  := by
  obtain ⟨blanks, hblanks, rfl⟩ := h
  have hmacroName : kind.macroName.toList.all isWord := by
    cases kind with
    | function => decide
    | procedure => decide
  rw [List.mem_append, not_or]
  refine ⟨?_, not_mem_of_blanks hblanks hblank⟩
  intro hmem
  rw [List.all_eq_true.mp hmacroName c hmem] at hword
  contradiction

/-- The name of the macro stands in front of the blanks only once. -/
theorem eq_nil_of_append {front : Text} (h : Opening kind (front ++ head))
    (hhead : Opening kind head) :
  front = []
  := by
  obtain ⟨t, ht⟩ := h.exists_cons
  obtain ⟨b, hb, heq⟩ := h
  obtain ⟨b', hb', rfl⟩ := hhead
  have hcount {blanks : Text} (hblanks : Blanks blanks) : blanks.countP (!isBlank ·) = 0 := by
    rw [List.countP_eq_zero]
    intro c hc
    simp [hblanks c hc]
  have hfront : front.countP (!isBlank ·) = 0 := by
    have hcounts := congrArg (List.countP (!isBlank ·)) heq
    simp only [List.countP_append, hcount hb, hcount hb'] at hcounts
    omega
  cases front with
  | nil => rfl
  | cons c front =>
      obtain ⟨rfl, -⟩ := List.cons.inj ht
      rw [List.countP_eq_zero] at hfront
      have hblank := hfront 'R' List.mem_cons_self
      contradiction

end Opening

/-- The only opening parenthesis of a piece follows the name of the macro. -/
theorem Spelled.exists_opening (h : Spelled kind name digits piece) :
  ∃ head body, Opening kind head ∧ '(' ∉ body ∧ piece = head ++ '(' :: (body ++ [';'])
  := by
  obtain ⟨hname, -, hdigits, b₁, b₂, b₃, b₄, b₅, b₆, ⟨h₁, h₂, h₃, h₄, h₅, h₆⟩, hpiece⟩ := h
  use kind.macroName.toList ++ b₁, b₂ ++ name ++ b₃ ++ [','] ++ b₄ ++ digits ++ b₅ ++ [')'] ++ b₆
  use ⟨b₁, h₁, rfl⟩
  have hname : '(' ∉ name := by
    intro hmem
    have hword := isWord_of_isIdent hname '(' hmem
    contradiction
  have hdigits : '(' ∉ digits := by
    intro hmem
    have hdecimal := hdigits '(' hmem
    contradiction
  have hblanks {b : Text} (hb : Blanks b) : '(' ∉ b := not_mem_of_blanks hb rfl
  simp [hpiece, hname, hdigits, hblanks h₂, hblanks h₃, hblanks h₄, hblanks h₅, hblanks h₆]

/-- What precedes the first occurrence of a character is determined. -/
theorem eq_of_append_cons_eq {c : Char} {s s' t t' : Text} (hs : c ∉ s) (hs' : c ∉ s')
    (h : s ++ c :: t = s' ++ c :: t') :
  s = s'
  := by
  have hbefore {s t : Text} (hs : c ∉ s) : (s ++ c :: t).takeWhile (· != c) = s := by
    apply (takeWhile_append_all _ _).1
    · intro d hd
      rw [bne_iff_ne]
      rintro rfl
      exact hs hd
    · rintro _ ⟨⟩
      simp
  rw [← hbefore hs, h, hbefore hs']

/-- Of two texts, one before an opening parenthesis and one before a semicolon, the first one has
a semicolon or the second one a parenthesis. -/
theorem mem_or_mem_of_append_eq {s s' t t' : Text} (h : s ++ '(' :: t = s' ++ ';' :: t') :
  ';' ∈ s ∨ '(' ∈ s'
  := by
  rcases List.append_eq_append_iff.mp h with ⟨u, rfl, hu⟩ | ⟨u, rfl, hu⟩
  · cases u with
    | nil =>
        obtain ⟨hmark, -⟩ := List.cons.inj hu
        contradiction
    | cons c u =>
        obtain ⟨rfl, -⟩ := List.cons.inj hu
        simp
  · cases u with
    | nil =>
        obtain ⟨hmark, -⟩ := List.cons.inj hu
        contradiction
    | cons c u =>
        obtain ⟨rfl, -⟩ := List.cons.inj hu
        simp

/-- No piece starts inside of another one of the same kind. -/
theorem Spelled.length_le {name' digits' piece' front rest' : Text}
    (h : Spelled kind name digits piece) (h' : Spelled kind name' digits' piece')
    (heq : piece ++ rest = front ++ (piece' ++ rest')) (hfront : front ≠ []) :
  piece.length ≤ front.length
  := by
  obtain ⟨head, body, hhead, hbody, rfl⟩ := h.exists_opening
  obtain ⟨head', body', hhead', -, rfl⟩ := h'.exists_opening
  simp only [List.append_assoc, List.cons_append, List.nil_append] at heq
  rcases List.append_eq_append_iff.mp heq with ⟨tail, rfl, htail⟩ | ⟨tail, rfl, htail⟩
  · -- the second piece starts behind the opening of the first one
    cases tail with
    | nil =>
        obtain ⟨t, rfl⟩ := hhead'.exists_cons
        obtain ⟨hmark, -⟩ := List.cons.inj htail
        contradiction
    | cons c tail =>
        rw [List.cons_append, List.cons.injEq] at htail
        obtain ⟨rfl, htail⟩ := htail
        by_contra hlt
        simp only [List.length_append, List.length_cons, List.length_nil] at hlt
        obtain ⟨between, rfl⟩ : tail <+: body := by
          apply List.prefix_of_prefix_length_le ⟨_, htail.symm⟩ ⟨_, rfl⟩
          omega
        rw [List.append_assoc, List.append_cancel_left_eq] at htail
        rcases mem_or_mem_of_append_eq htail.symm with hmem | hmem
        · exact hhead'.not_mem rfl rfl hmem
        · exact hbody (List.mem_append_right tail hmem)
  · -- the second piece starts in the opening of the first one
    have htail : tail = head' := by
      have hparen := hhead.not_mem (c := '(') rfl rfl
      rw [List.mem_append, not_or] at hparen
      exact eq_of_append_cons_eq hparen.2 (hhead'.not_mem rfl rfl) htail.symm
    rw [htail] at hhead
    exact absurd (hhead.eq_nil_of_append hhead') hfront

theorem separated_matcher (kind : EntryKind) :
  Separated (matcher kind)
  where
  before _ _ := rfl
  nil := by
    cases kind <;> rfl
  apart := by
    rintro t ⟨name, digits⟩ rest hmatch position hpositive hlt
    obtain ⟨piece, rfl, hspelled⟩ := spelled_of_matcher hmatch
    rw [List.length_append, Nat.add_sub_cancel] at hlt
    rw [← Option.not_isSome_iff_eq_none, Option.isSome_iff_exists]
    rintro ⟨⟨⟨name', digits'⟩, rest'⟩, hmatch'⟩
    obtain ⟨piece', hdrop, hspelled'⟩ := spelled_of_matcher hmatch'
    have heq : piece ++ rest = (piece ++ rest).take position ++ (piece' ++ rest') := by
      rw [← hdrop, List.take_append_drop]
    have hlength : ((piece ++ rest).take position).length = position := by
      rw [List.length_take, List.length_append]
      omega
    have hle := hspelled.length_le hspelled' heq (List.ne_nil_of_length_pos (by omega))
    omega

end Registration

/-! ### Occurrences -/

/-- A registration and the position in the source at which it stands. -/
structure Occurrence where
  position : Nat
  registration : Registration
  deriving DecidableEq, Repr

namespace Occurrence

open Registration

/-- A registration stands in a source at its position. -/
def Occurs (source : Text) (o : Occurrence) : Prop :=
  ∃ front piece rest digits, source = front ++ (piece ++ rest) ∧ front.length = o.position ∧
    Spelled o.registration.kind o.registration.name.toList digits piece ∧
    o.registration.inputType = Numeral.value digits

/-- The occurrence that a match at a position denotes. -/
def ofMatch (kind : EntryKind) (found : Nat × Text × Text) : Occurrence :=
  ⟨found.1, kind, String.ofList found.2.1, Numeral.value found.2.2⟩

/-- The occurrences of registrations of a kind in a source, in textual order. -/
def ofKind (kind : EntryKind) (source : Text) : List Occurrence :=
  (Text.matchesOf (matcher kind) source).map (ofMatch kind)

variable {kind : EntryKind} {source : Text} {o : Occurrence}

theorem mem_ofKind :
  o ∈ ofKind kind source ↔ o.registration.kind = kind ∧ Occurs source o
  := by
  rw [ofKind, List.mem_map]
  constructor
  · rintro ⟨⟨position, name, digits⟩, hmem, rfl⟩
    refine ⟨rfl, ?_⟩
    obtain ⟨rest, hmatch⟩ := (Text.mem_matchesOf (separated_matcher kind).nil).mp hmem
    obtain ⟨piece, hdrop, hspelled⟩ := spelled_of_matcher hmatch
    refine ⟨source.take position, piece, rest, digits, ?_, ?_, ?_, rfl⟩
    · rw [← hdrop, List.take_append_drop]
    · rw [List.length_take, Nat.min_eq_left]
      · rfl
      · by_contra hlt
        rw [List.drop_eq_nil_of_le (by omega), (separated_matcher kind).nil] at hmatch
        contradiction
    · rw [ofMatch, String.toList_ofList]
      exact hspelled
  · rintro ⟨rfl, front, piece, rest, digits, rfl, hposition, hspelled, hnumber⟩
    refine ⟨(o.position, o.registration.name.toList, digits), ?_, ?_⟩
    · rw [Text.mem_matchesOf (separated_matcher _).nil]
      use rest
      rw [← hposition, List.drop_left]
      apply matcher_of_spelled hspelled
    · rw [ofMatch, String.ofList_toList, ← hnumber]

/-- The occurrences of a kind come in the order of their positions. -/
theorem pairwise_ofKind (kind : EntryKind) (source : Text) :
  (ofKind kind source).Pairwise fun o o' => o.position < o'.position
  := by
  rw [ofKind, List.pairwise_map]
  apply Text.pairwise_matchesFrom (separated_matcher kind).nil

/-- The registrations of a kind that are read off a source are those that occur in it. -/
theorem map_registration_ofKind {rs : List Registration}
    (h : Registration.ofKind kind source = .ok rs) :
  rs = (ofKind kind source).map registration
  := by
  have hread {found : Text × Text} {r : Registration}
      (hr : (do return ⟨kind, String.ofList found.1, ← Numeral.read found.2⟩) =
        (.ok r : Except Numeral.Error Registration)) :
      r = ⟨kind, String.ofList found.1, Numeral.value found.2⟩ := by
    obtain ⟨number, hnumber, hr⟩ := bind_eq_ok_iff.mp hr
    obtain rfl := Except.ok.inj hr
    rw [Numeral.read] at hnumber
    split at hnumber
    · rw [Except.ok.inj hnumber]
    · contradiction
  rw [Registration.ofKind, Text.scan_eq_map_matchesOf (separated_matcher kind)] at h
  rw [eq_map_of_mapM hread h, ofKind, List.map_map, List.map_map]
  rfl

end Occurrence

end ContractInterface
