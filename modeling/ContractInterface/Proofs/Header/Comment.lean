import ContractInterface.Header.Comment
import ContractInterface.Proofs.Header.Statement
import Mathlib.Data.List.Infix
import Mathlib.Data.List.TakeWhile

/-!
# Comments and what lies between them

Read from left to right, a text falls into segments: the characters outside comments, the line
comments and the closed block comments.  A comment is opened outside comments only, so the marks
that open a comment mean nothing inside of one.  The text without comments is what is left when
every line comment is dropped and every block comment is replaced by a space.

Removing the block comments of a text first, and its line comments afterwards, gives the same as
long as a block that is opened in a line comment does not reach beyond it (`Separate`).  Otherwise
the end of the line goes with the block, and what stands on the line where the block ends goes
with the line comment.

The comments of two texts that follow each other on lines of their own are those of the one and of
the other, if the first text leaves no block open.
-/

namespace ContractInterface.Header

/-! ### Blocks -/

/-- The text before and after the first mark that closes a block comment. -/
def cutBlock? : Text → Option (Text × Text)
  | '*' :: '/' :: t => some ([], t)
  | c :: t => (cutBlock? t).map fun (body, rest) => (c :: body, rest)
  | [] => none

theorem eq_append_of_cutBlock? {t body rest : Text} (h : cutBlock? t = some (body, rest)) :
  t = body ++ '*' :: '/' :: rest
  := by
  fun_induction cutBlock? t generalizing body with
  | case1 t =>
      obtain ⟨rfl, rfl⟩ : [] = body ∧ t = rest := by simpa using h
      rfl
  | case2 c t _ ih =>
      obtain ⟨⟨body', rest'⟩, hcut, heq⟩ := Option.map_eq_some_iff.mp h
      obtain ⟨rfl, rfl⟩ := Prod.mk.inj heq
      rw [ih hcut]
      rfl
  | case3 => contradiction

theorem cutBlock?_append {t body rest : Text} (h : cutBlock? t = some (body, rest)) (u : Text) :
  cutBlock? (t ++ u) = some (body, rest ++ u)
  := by
  fun_induction cutBlock? t generalizing body with
  | case1 t =>
      obtain ⟨rfl, rfl⟩ : [] = body ∧ t = rest := by simpa using h
      rfl
  | case2 c t hopen ih =>
      obtain ⟨⟨body', rest'⟩, hcut, heq⟩ := Option.map_eq_some_iff.mp h
      obtain ⟨rfl, rfl⟩ := Prod.mk.inj heq
      rw [List.cons_append, cutBlock?, ih hcut]
      · rfl
      · intro rest'' hc ht
        cases t with
        | nil => contradiction
        | cons d t =>
            obtain ⟨rfl, -⟩ := List.cons.inj ht
            apply hopen t hc rfl
  | case3 => contradiction

theorem exists_cutBlock?_iff {t : Text} :
  (∃ body rest, cutBlock? t = some (body, rest)) ↔ ['*', '/'] <:+: t
  := by
  constructor
  · rintro ⟨body, rest, h⟩
    rw [eq_append_of_cutBlock? h]
    exact ⟨body, rest, by simp⟩
  · intro h
    fun_induction cutBlock? t with
    | case1 t => exact ⟨[], t, rfl⟩
    | case2 c t hopen ih =>
        rcases List.infix_cons_iff.mp h with ⟨rest, hrest⟩ | hinfix
        · obtain ⟨hc, ht⟩ := List.cons.inj hrest
          exact absurd ht.symm (hopen rest hc.symm)
        · obtain ⟨body, rest, hcut⟩ := ih hinfix
          exact ⟨c :: body, rest, by rw [hcut]; rfl⟩
    | case3 => simp at h

theorem closesBlock_eq_isSome (t : Text) :
  closesBlock t = (cutBlock? t).isSome
  := by
  fun_induction closesBlock t with
  | case1 t => rfl
  | case2 c t hopen ih =>
      rw [cutBlock?, ih, Option.isSome_map]
      exact hopen
  | case3 => rfl

/-- Inside a block, text is dropped up to the mark that closes it. -/
theorem dropBlocks_of_cutBlock? {t body rest : Text} (h : cutBlock? t = some (body, rest)) :
  dropBlocks true t = dropBlocks false rest
  := by
  fun_induction cutBlock? t generalizing body with
  | case1 t =>
      obtain ⟨-, rfl⟩ : [] = body ∧ t = rest := by simpa using h
      rfl
  | case2 c t hopen ih =>
      obtain ⟨⟨body', rest'⟩, hcut, heq⟩ := Option.map_eq_some_iff.mp h
      obtain ⟨rfl, rfl⟩ := Prod.mk.inj heq
      rw [dropBlocks, ih hcut]
      exact hopen
  | case3 => contradiction

/-- At its front, a text opens a block that is closed later on. -/
def OpensBlock (t : Text) : Prop :=
  ['/', '*'] <+: t ∧ ['*', '/'] <:+: t.drop 2

instance : DecidablePred OpensBlock :=
  fun t => inferInstanceAs (Decidable (['/', '*'] <+: t ∧ ['*', '/'] <:+: t.drop 2))

theorem opensBlock_iff {t : Text} :
  OpensBlock t ↔ ∃ u body rest, t = '/' :: '*' :: u ∧ cutBlock? u = some (body, rest)
  := by
  constructor
  · rintro ⟨⟨u, rfl⟩, hclosed⟩
    obtain ⟨body, rest, hcut⟩ := exists_cutBlock?_iff.mpr hclosed
    exact ⟨u, body, rest, rfl, hcut⟩
  · rintro ⟨u, body, rest, rfl, hcut⟩
    exact ⟨⟨u, rfl⟩, exists_cutBlock?_iff.mp ⟨body, rest, hcut⟩⟩

/-- A closed block is replaced by a space. -/
theorem dropBlocks_block {t body rest : Text} (h : cutBlock? t = some (body, rest)) :
  dropBlocks false ('/' :: '*' :: t) = ' ' :: dropBlocks false rest
  := by
  have hclosed : closesBlock t = true := by
    rw [closesBlock_eq_isSome, h]
    rfl
  rw [dropBlocks, if_pos hclosed, dropBlocks_of_cutBlock? h]

/-- What opens no closed block stays. -/
theorem dropBlocks_cons {c : Char} {t : Text} (h : ¬OpensBlock (c :: t)) :
  dropBlocks false (c :: t) = c :: dropBlocks false t
  := by
  by_cases hopen : c = '/' ∧ t.head? = some '*'
  · obtain ⟨rfl, hstar⟩ := hopen
    obtain ⟨u, rfl⟩ := List.head?_eq_some_iff.mp hstar
    have hclosed : closesBlock u = false := by
      rw [closesBlock_eq_isSome, ← Bool.not_eq_true, Option.isSome_iff_exists]
      rintro ⟨⟨body, rest⟩, hcut⟩
      exact h (opensBlock_iff.mpr ⟨u, body, rest, rfl, hcut⟩)
    rw [dropBlocks, if_neg (by simp [hclosed]), dropBlocks]
    simp
  · rw [dropBlocks]
    rintro u rfl rfl
    exact hopen ⟨rfl, rfl⟩

/-- An induction along a text, in which a closed block is passed over as a whole. -/
@[elab_as_elim]
theorem block_induction {P : Text → Prop} (nil : P [])
    (block : ∀ u body rest, cutBlock? u = some (body, rest) → P rest → P ('/' :: '*' :: u))
    (plain : ∀ c t, ¬OpensBlock (c :: t) → P t → P (c :: t)) (t : Text) :
  P t
  := by
  induction hn : t.length using Nat.strongRecOn generalizing t with
  | ind n ih =>
      cases t with
      | nil => exact nil
      | cons c t =>
          rw [List.length_cons] at hn
          by_cases hopen : OpensBlock (c :: t)
          · obtain ⟨u, body, rest, heq, hcut⟩ := opensBlock_iff.mp hopen
            obtain ⟨rfl, rfl⟩ := List.cons.inj heq
            apply block u body rest hcut
            apply ih rest.length _ rest rfl
            rw [← hn, eq_append_of_cutBlock? hcut]
            simp
            omega
          · apply plain c t hopen (ih t.length (by omega) t rfl)

theorem head?_dropBlocks {t : Text} (h : t.head? ≠ some '/') :
  (dropBlocks false t).head? = t.head?
  := by
  cases t with
  | nil => rfl
  | cons c t =>
      rw [dropBlocks_cons]
      · rfl
      · rw [opensBlock_iff]
        rintro ⟨u, body, rest, heq, -⟩
        obtain ⟨rfl, -⟩ := List.cons.inj heq
        exact h rfl

/-! ### Segments -/

/-- A segment of a text: a character outside comments, or a comment with the text inside it. -/
inductive Segment where
  | plain (c : Char)
  | line (body : Text)
  | block (body : Text)
  deriving DecidableEq, Repr

namespace Segment

/-- The text of a segment. -/
def source : Segment → Text
  | plain c => [c]
  | line body => '/' :: '/' :: body
  | block body => '/' :: '*' :: body ++ ['*', '/']

/-- What is left of a segment in the text without comments. -/
def kept : Segment → Text
  | plain c => [c]
  | line _ => []
  | block _ => [' ']

/-- The comment that is opened at the front of a text, and the text after it.  A line comment ends
before the end of its line, and a block comment has to be closed. -/
def comment? : Text → Option (Segment × Text)
  | '/' :: '/' :: t => some (line (t.takeWhile (· != '\n')), t.dropWhile (· != '\n'))
  | '/' :: '*' :: t => (cutBlock? t).map fun (body, rest) => (block body, rest)
  | _ => none

/-- The two kinds of comments that a text can begin with. -/
theorem comment?_cases {t rest : Text} {segment : Segment}
    (h : comment? t = some (segment, rest)) :
  (∃ u, t = '/' :: '/' :: u ∧ segment = line (u.takeWhile (· != '\n')) ∧
    rest = u.dropWhile (· != '\n')) ∨
  ∃ u body, t = '/' :: '*' :: u ∧ segment = block body ∧ cutBlock? u = some (body, rest)
  := by
  unfold comment? at h
  split at h
  · rename_i u
    obtain ⟨rfl, rfl⟩ := Prod.mk.inj (Option.some.inj h)
    exact .inl ⟨u, rfl, rfl, rfl⟩
  · rename_i u
    obtain ⟨⟨body, rest'⟩, hcut, heq⟩ := Option.map_eq_some_iff.mp h
    obtain ⟨rfl, rfl⟩ := Prod.mk.inj heq
    exact .inr ⟨u, body, rfl, rfl, hcut⟩
  · contradiction

theorem eq_append_of_comment? {t rest : Text} {segment : Segment}
    (h : comment? t = some (segment, rest)) :
  t = segment.source ++ rest
  := by
  rcases comment?_cases h with ⟨u, rfl, rfl, rfl⟩ | ⟨u, body, rfl, rfl, hcut⟩
  · simp [source]
  · rw [eq_append_of_cutBlock? hcut]
    simp [source]

theorem length_of_comment? {t rest : Text} {segment : Segment}
    (h : comment? t = some (segment, rest)) :
  rest.length < t.length
  := by
  rw [eq_append_of_comment? h, List.length_append]
  cases segment <;> simp [source]

end Segment

open Segment

/-- The segments of a text, found from left to right: where a comment is opened it is passed over
as a whole, and any other character is outside comments. -/
def segments : Text → List Segment
  | [] => []
  | c :: t =>
    match _h : comment? (c :: t) with
    | some (segment, rest) => segment :: segments rest
    | none => plain c :: segments t
termination_by t => t.length
decreasing_by
  · exact length_of_comment? _h
  · exact Nat.lt_succ_self t.length

/-- The segments make up the text. -/
theorem flatMap_source_segments (t : Text) :
  (segments t).flatMap source = t
  := by
  fun_induction segments t with
  | case1 => rfl
  | case2 c t segment rest h ih => rw [List.flatMap_cons, ih, ← eq_append_of_comment? h]
  | case3 c t h ih =>
      rw [List.flatMap_cons, ih]
      rfl

/-! ### Blocks that are opened in line comments -/

/-- In a text that goes on with `rest`, every block that is opened in a line and closed at all is
closed in the line. -/
def BlocksWithin (rest line : Text) : Prop :=
  ∀ u ∈ line.tails, OpensBlock (u ++ rest) → OpensBlock u

instance (rest : Text) : DecidablePred (BlocksWithin rest) :=
  fun line => inferInstanceAs (Decidable (∀ u ∈ line.tails, OpensBlock (u ++ rest) → OpensBlock u))

theorem BlocksWithin.of_suffix {rest line line' : Text} (h : BlocksWithin rest line)
    (hsuffix : line' <:+ line) :
  BlocksWithin rest line'
  := by
  intro u hu
  apply h u
  rw [List.mem_tails] at hu ⊢
  apply hu.trans hsuffix

/-- Dropping the blocks of a text leaves a line whose blocks are closed in it with some text in
its place, and what follows the line as it would be on its own. -/
theorem exists_dropBlocks_line {line rest : Text} (h : BlocksWithin rest line)
    (hline : '\n' ∉ line) :
  ∃ line', '\n' ∉ line' ∧ dropBlocks false (line ++ rest) = line' ++ dropBlocks false rest
  := by
  induction line using block_induction with
  | nil => exact ⟨[], by simp, rfl⟩
  | block u body outside hcut ih =>
      have hsuffix : outside <:+ '/' :: '*' :: u := by
        rw [eq_append_of_cutBlock? hcut]
        exact ⟨'/' :: '*' :: body ++ ['*', '/'], by simp⟩
      obtain ⟨line', hline', hdrop⟩ := ih (h.of_suffix hsuffix)
        fun hmem => hline (hsuffix.subset hmem)
      refine ⟨' ' :: line', by simpa using hline', ?_⟩
      rw [List.cons_append, List.cons_append, dropBlocks_block (cutBlock?_append hcut rest), hdrop,
        List.cons_append]
  | plain c line hopen ih =>
      have hopen' : ¬OpensBlock (c :: (line ++ rest)) := fun hopens =>
        hopen (h (c :: line) (by simp [List.mem_tails]) hopens)
      obtain ⟨hc, hline⟩ : '\n' ≠ c ∧ '\n' ∉ line := by simpa using hline
      obtain ⟨line', hline', hdrop⟩ := ih (h.of_suffix (List.suffix_cons c line)) hline
      refine ⟨c :: line', by simp [hc, hline'], ?_⟩
      rw [List.cons_append, dropBlocks_cons hopen', hdrop, List.cons_append]

/-- A segment, given the text after it, whose blocks do not reach beyond it: the blocks that are
opened in a line comment are closed in it, and its second slash opens none. -/
def Segment.Contained (rest : Text) : Segment → Prop
  | line body => ¬OpensBlock ('/' :: (body ++ rest)) ∧ BlocksWithin rest body
  | plain _ | block _ => True

/-- Segments of which none opens a block that reaches beyond it. -/
def Separate : List Segment → Prop
  | [] => True
  | segment :: rest => segment.Contained (rest.flatMap source) ∧ Separate rest

instance (rest : Text) : DecidablePred (Segment.Contained rest)
  | line body =>
    inferInstanceAs (Decidable (¬OpensBlock ('/' :: (body ++ rest)) ∧ BlocksWithin rest body))
  | plain _ | block _ => .isTrue trivial

instance decidableSeparate : DecidablePred Separate
  | [] => .isTrue trivial
  | segment :: rest =>
    have := decidableSeparate rest
    inferInstanceAs (Decidable (segment.Contained (rest.flatMap source) ∧ Separate rest))

/-! ### Line comments -/

/-- A text that begins with the end of a line, if with anything. -/
def StartsLine (t : Text) : Prop :=
  ∀ c ∈ t.head?, c = '\n'

theorem startsLine_dropWhile (t : Text) :
  StartsLine (t.dropWhile (· != '\n'))
  := by
  intro c hc
  have hhead := List.head?_dropWhile_not (· != '\n') t
  rw [Option.mem_def.mp hc] at hhead
  simpa using hhead

theorem StartsLine.dropBlocks {t : Text} (h : StartsLine t) :
  StartsLine (dropBlocks false t)
  := by
  intro c hc
  rw [head?_dropBlocks] at hc
  · apply h c hc
  · intro hslash
    have hline := h '/' hslash
    contradiction

/-- A line comment is dropped up to the end of its line. -/
theorem dropLineComments_line {body rest : Text} (hbody : '\n' ∉ body) (hrest : StartsLine rest) :
  dropLineComments true (body ++ rest) = dropLineComments false rest
  := by
  induction body with
  | nil =>
      cases rest with
      | nil => rfl
      | cons c rest =>
          obtain rfl : c = '\n' := hrest c rfl
          simp [dropLineComments]
  | cons c body ih =>
      obtain ⟨hc, hbody⟩ : '\n' ≠ c ∧ '\n' ∉ body := by simpa using hbody
      rw [List.cons_append, dropLineComments, ih hbody]
      exact fun h => hc h.symm

/-! ### Texts that follow each other on lines of their own -/

/-- Blocks do not reach beyond a text in which no opened block is left. -/
theorem dropBlocks_append_line {t : Text} (h : ¬['/', '*'] <:+: dropBlocks false t) (u : Text) :
  dropBlocks false (t ++ '\n' :: u) = dropBlocks false t ++ '\n' :: dropBlocks false u
  := by
  induction t using block_induction with
  | nil =>
      rw [List.nil_append, dropBlocks_cons (by simp [OpensBlock])]
      rfl
  | block v body rest hcut ih =>
      rw [dropBlocks_block hcut] at h
      rw [List.cons_append, List.cons_append, dropBlocks_block (cutBlock?_append hcut _),
        dropBlocks_block hcut, ih fun hinfix => h (List.infix_cons hinfix)]
      rfl
  | plain c t hopen ih =>
      rw [dropBlocks_cons hopen] at h
      have hopen' : ¬OpensBlock (c :: (t ++ '\n' :: u)) := by
        rintro ⟨⟨v, hv⟩, -⟩
        cases t with
        | nil => simp at hv
        | cons d t =>
            simp only [List.cons_append, List.nil_append, List.cons.injEq] at hv
            obtain ⟨rfl, rfl, -⟩ := hv
            -- a block that is opened but not closed in the text would be left
            apply h
            rw [dropBlocks_cons (by simp [OpensBlock])]
            exact ⟨[], dropBlocks false t, rfl⟩
      rw [List.cons_append, dropBlocks_cons hopen', dropBlocks_cons hopen,
        ih fun hinfix => h (List.infix_cons hinfix)]
      rfl

theorem dropLineComments_append_line (inside : Bool) (t u : Text) :
  dropLineComments inside (t ++ '\n' :: u) =
    dropLineComments inside t ++ '\n' :: dropLineComments false u
  := by
  fun_induction dropLineComments inside t with
  | case1 inside => cases inside <;> simp [dropLineComments]
  | case2 t ih => rw [List.cons_append, dropLineComments, ih, List.cons_append]
  | case3 c t hc ih =>
      rw [List.cons_append, dropLineComments, ih]
      exact hc
  | case4 t ih => rw [List.cons_append, List.cons_append, dropLineComments, ih]
  | case5 c t hslash ih =>
      rw [List.cons_append, dropLineComments, ih, List.cons_append]
      intro v hc hv
      cases t with
      | nil => simp at hv
      | cons d t =>
          obtain ⟨rfl, -⟩ := List.cons.inj hv
          exact hslash t hc rfl

/-- The comments of a text that follows another one on a new line are removed as if it stood
alone, if the other one leaves no block open. -/
theorem stripComments_append_line {t : Text} (h : ¬['/', '*'] <:+: dropBlocks false t)
    (u : Text) :
  stripComments (t ++ '\n' :: u) = stripComments t ++ '\n' :: stripComments u
  := by
  rw [stripComments, dropBlocks_append_line h, dropLineComments_append_line]
  rfl

/-! ### Removing one kind of comment after the other -/

theorem stripComments_block {t body rest : Text} (h : cutBlock? t = some (body, rest)) :
  stripComments ('/' :: '*' :: t) = ' ' :: stripComments rest
  := by
  rw [stripComments, dropBlocks_block h, dropLineComments, stripComments]
  simp

theorem stripComments_line {body rest : Text} (h : Contained rest (.line body))
    (hbody : '\n' ∉ body) (hrest : StartsLine rest) :
  stripComments ('/' :: '/' :: body ++ rest) = stripComments rest
  := by
  obtain ⟨hslash, hblocks⟩ := h
  obtain ⟨body', hbody', hdrop⟩ := exists_dropBlocks_line hblocks hbody
  have hslashes : ¬OpensBlock ('/' :: '/' :: (body ++ rest)) := by
    rintro ⟨⟨u, hu⟩, -⟩
    simp at hu
  rw [stripComments, List.cons_append, List.cons_append, dropBlocks_cons hslashes,
    dropBlocks_cons hslash, hdrop, dropLineComments,
    dropLineComments_line hbody' hrest.dropBlocks, stripComments]

theorem stripComments_plain {c : Char} {t : Text} (h : comment? (c :: t) = none) :
  stripComments (c :: t) = c :: stripComments t
  := by
  have hopen : ¬OpensBlock (c :: t) := by
    rw [opensBlock_iff]
    rintro ⟨u, body, rest, heq, hcut⟩
    simp [heq, comment?, hcut] at h
  have hslash : c = '/' → t.head? ≠ some '/' := by
    rintro rfl hhead
    obtain ⟨u, rfl⟩ := List.head?_eq_some_iff.mp hhead
    contradiction
  rw [stripComments, dropBlocks_cons hopen, dropLineComments, stripComments]
  -- no line comment arises where a block is dropped, since it leaves a space
  intro u hc hu
  have hhead := head?_dropBlocks (hslash hc)
  rw [hu] at hhead
  exact absurd hhead.symm (hslash hc)

/-- A text in which no comment is opened stays, up to its last character, which may open one
together with what follows. -/
theorem stripComments_append {s : Text} (hline : ¬['/', '/'] <:+: s) (hblock : ¬['/', '*'] <:+: s)
    {t : Text} (hlast : s.getLast? = some '/' → t = []) :
  stripComments (s ++ t) = s ++ stripComments t
  := by
  induction s with
  | nil => rfl
  | cons c s ih =>
      have htail (w : Text) (h : ¬w <:+: c :: s) : ¬w <:+: s := fun hmem => h (List.infix_cons hmem)
      have hnone : comment? (c :: (s ++ t)) = none := by
        rw [Option.eq_none_iff_forall_not_mem]
        rintro ⟨segment, rest⟩ hsome
        cases s with
        | nil =>
            rcases comment?_cases hsome with ⟨u, heq, -⟩ | ⟨u, body, heq, -⟩
            all_goals
              obtain ⟨rfl, ht⟩ := List.cons.inj heq
              rw [hlast rfl] at ht
              contradiction
        | cons d s =>
            rcases comment?_cases hsome with ⟨u, heq, -⟩ | ⟨u, body, heq, -⟩
            · obtain ⟨rfl, hrest⟩ := List.cons.inj heq
              obtain ⟨rfl, -⟩ := List.cons.inj hrest
              exact hline (List.prefix_append _ s).isInfix
            · obtain ⟨rfl, hrest⟩ := List.cons.inj heq
              obtain ⟨rfl, -⟩ := List.cons.inj hrest
              exact hblock (List.prefix_append _ s).isInfix
      have hrest : s.getLast? = some '/' → t = [] := by
        intro h
        apply hlast
        rw [List.getLast?_cons, h]
        rfl
      rw [List.cons_append, stripComments_plain hnone, ih (htail _ hline) (htail _ hblock) hrest]
      rfl

/-- Removing first the block comments of a text and then its line comments is what one pass from
left to right does, if no line comment opens a block that reaches beyond it.  All that is removed
belongs to a comment, since the segments make up the text. -/
theorem stripComments_eq_kept {t : Text} (h : Separate (segments t)) :
  (segments t).flatMap source = t ∧ stripComments t = (segments t).flatMap kept
  := by
  refine ⟨flatMap_source_segments t, ?_⟩
  fun_induction segments t with
  | case1 => rfl
  | case2 c t segment rest hcomment ih =>
      obtain ⟨hsegment, hrest⟩ := h
      rw [flatMap_source_segments] at hsegment
      rw [List.flatMap_cons, ← ih hrest]
      rcases comment?_cases hcomment with ⟨u, -, rfl, rfl⟩ | ⟨u, body, heq, rfl, hcut⟩
      · have hline : '\n' ∉ u.takeWhile (· != '\n') := by
          intro hmem
          simpa using List.mem_takeWhile_imp hmem
        rw [eq_append_of_comment? hcomment, source,
          stripComments_line hsegment hline (startsLine_dropWhile u)]
        rfl
      · rw [heq, stripComments_block hcut]
        rfl
  | case3 c t hcomment ih =>
      obtain ⟨-, hrest⟩ := h
      rw [List.flatMap_cons, ← ih hrest]
      apply stripComments_plain hcomment

/-- Comments of both kinds in which openings of the other kind stand. -/
def commentedText : Text :=
  "a // b /* c */ d\ne /* f // g\n h */ i /* j // k /* l".toList

theorem stripComments_eq_kept_commentedText :
  Separate (segments commentedText) ∧
  (segments commentedText).flatMap source = commentedText ∧
  stripComments commentedText = (segments commentedText).flatMap kept
  := by
  have h : Separate (segments commentedText) := by decide +kernel
  exact ⟨h, stripComments_eq_kept h⟩

/-- A block that is opened in a line comment and closed two lines below takes the text between
them with it. -/
theorem stripComments_swallows :
  let t := "// a /* b\nuint8 x;\n/* c */ uint8 y;".toList
  ('"' ∉ t ∧ '\'' ∉ t ∧ '\\' ∉ t) ∧
  stripComments t = [] ∧
  (segments t).flatMap kept = "\nuint8 x;\n  uint8 y;".toList
  := by
  decide +kernel

end ContractInterface.Header
