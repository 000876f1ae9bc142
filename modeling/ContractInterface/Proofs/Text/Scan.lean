import ContractInterface.Text.Scan
import Mathlib.Data.List.Basic

/-!
# Matches at all positions

A scanner goes on behind a match, so in general it does not see the matches that start inside of
another one.  If the matcher does not look at what precedes a position, and no match starts inside
of another one, then the scanner finds the matches at all positions of the text.

In a text that goes on behind a character, the scanner finds what it finds in the two parts, if no
match reaches across that character.

The leftmost match is the one at the first position at which there is one.
-/

namespace ContractInterface.Text

variable {α : Type}

/-- The matches at all positions of a text, each with its position; the text itself stands at the
given one. -/
def matchesFrom (m : Matcher α) : Nat → Text → List (Nat × α)
  | _, [] => []
  | position, c :: t =>
    ((m none (c :: t)).map fun found => (position, found.1)).toList ++
      matchesFrom m (position + 1) t

/-- The matches at all positions of a text, each with its position. -/
def matchesOf (m : Matcher α) (t : Text) : List (Nat × α) :=
  matchesFrom m 0 t

/-- A matcher that does not look at what precedes a position, does not match without text, and
none of whose matches starts inside of another one. -/
structure Separated (m : Matcher α) : Prop where
  before : ∀ (before : Option Char) (t : Text), m before t = m none t
  nil : m none [] = none
  apart : ∀ {t : Text} {a : α} {rest : Text}, m none t = some (a, rest) →
    ∀ position, 0 < position → position < t.length - rest.length → m none (t.drop position) = none

variable {m : Matcher α} {t : Text}

theorem matchesFrom_cons_none {c : Char} (h : m none (c :: t) = none) (position : Nat) :
  matchesFrom m position (c :: t) = matchesFrom m (position + 1) t
  := by
  rw [matchesFrom, h]
  rfl

theorem matchesFrom_cons_some {c : Char} {a : α} {rest : Text}
    (h : m none (c :: t) = some (a, rest)) (position : Nat) :
  matchesFrom m position (c :: t) = (position, a) :: matchesFrom m (position + 1) t
  := by
  rw [matchesFrom, h]
  rfl

/-- The scanner finds all matches if there are none among the positions that it passes over. -/
theorem scanFrom_eq_map_matchesFrom (hm : Separated m) {skip : Nat}
    (hskip : ∀ i < skip, m none (t.drop i) = none) (before : Option Char) (position : Nat) :
  scanFrom m before skip t = (matchesFrom m position t).map Prod.snd
  := by
  induction t generalizing before skip position with
  | nil => rfl
  | cons c t ih =>
      cases skip with
      | succ skip =>
          have hfirst : m none (c :: t) = none := hskip 0 (Nat.succ_pos skip)
          rw [scanFrom, matchesFrom_cons_none hfirst]
          apply ih
          intro i hi
          apply hskip (i + 1) (Nat.succ_lt_succ hi)
      | zero =>
          rw [scanFrom, hm.before]
          cases hfirst : m none (c :: t) with
          | none =>
              rw [matchesFrom_cons_none hfirst]
              apply ih
              intro i hi
              contradiction
          | some found =>
              obtain ⟨a, rest⟩ := found
              rw [matchesFrom_cons_some hfirst, List.map_cons]
              apply congrArg (a :: ·)
              apply ih
              intro i hi
              apply hm.apart hfirst (i + 1) (Nat.succ_pos i)
              rw [List.length_cons]
              omega

/-- A scanner finds the matches at all positions. -/
theorem scan_eq_map_matchesOf (hm : Separated m) (t : Text) :
  scan m t = (matchesOf m t).map Prod.snd
  := by
  apply scanFrom_eq_map_matchesFrom hm
  intro i hi
  contradiction

theorem mem_matchesFrom (hnil : m none [] = none) {position : Nat} {found : Nat × α} :
  found ∈ matchesFrom m position t ↔
    ∃ i rest, found.1 = position + i ∧ m none (t.drop i) = some (found.2, rest)
  := by
  induction t generalizing position with
  | nil => simp [matchesFrom, hnil]
  | cons c t ih =>
      rw [matchesFrom, List.mem_append]
      constructor
      · rintro (hfirst | hlater)
        · rw [Option.mem_toList, Option.map_eq_some_iff] at hfirst
          obtain ⟨⟨a, rest⟩, hmatch, rfl⟩ := hfirst
          exact ⟨0, rest, rfl, hmatch⟩
        · obtain ⟨i, rest, hposition, hmatch⟩ := ih.mp hlater
          exact ⟨i + 1, rest, by omega, hmatch⟩
      · rintro ⟨i, rest, hposition, hmatch⟩
        cases i with
        | zero =>
            left
            rw [Option.mem_toList, Option.map_eq_some_iff]
            exact ⟨(found.2, rest), hmatch, Prod.ext hposition.symm rfl⟩
        | succ i =>
            right
            exact ih.mpr ⟨i, rest, by omega, hmatch⟩

/-- A match is one at some position. -/
theorem mem_matchesOf (hnil : m none [] = none) {position : Nat} {a : α} :
  (position, a) ∈ matchesOf m t ↔ ∃ rest, m none (t.drop position) = some (a, rest)
  := by
  rw [matchesOf, mem_matchesFrom hnil]
  simp

/-- Matches come in the order of their positions. -/
theorem pairwise_matchesFrom (hnil : m none [] = none) (position : Nat) (t : Text) :
  (matchesFrom m position t).Pairwise fun found found' => found.1 < found'.1
  := by
  induction t generalizing position with
  | nil => exact .nil
  | cons c t ih =>
      cases hfirst : m none (c :: t) with
      | none =>
          rw [matchesFrom_cons_none hfirst]
          apply ih
      | some found =>
          rw [matchesFrom_cons_some hfirst, List.pairwise_cons]
          refine ⟨?_, ih (position + 1)⟩
          intro found' hfound'
          obtain ⟨i, rest, hposition, -⟩ := (mem_matchesFrom hnil).mp hfound'
          change position < found'.1
          omega

/-! ### Texts that follow each other -/

/-- A scanner finds the same in a text, whatever follows it, if the matcher does: a match in the
text is not affected by what follows, and none starts with the character that comes next. -/
theorem scanFrom_append {c : Char} {rest : Text} (hnil : ∀ before, m before [] = none)
    (hm : ∀ before, ∀ u, u <:+ t →
      m before (u ++ c :: rest) = (m before u).map (Prod.map id (· ++ c :: rest)))
    {skip : Nat} (hskip : skip ≤ t.length) (before : Option Char) :
  scanFrom m before skip (t ++ c :: rest) =
    scanFrom m before skip t ++ scanFrom m (some c) 0 rest
  := by
  induction t generalizing before skip with
  | nil =>
      obtain rfl : skip = 0 := by simpa using hskip
      have hnone : m before (c :: rest) = none := by simpa [hnil] using hm before [] List.suffix_rfl
      simp only [List.nil_append, scanFrom, hnone]
  | cons d t ih =>
      have hm' := fun before u (hu : u <:+ t) => hm before u (hu.trans (List.suffix_cons d t))
      cases skip with
      | succ skip =>
          rw [List.cons_append, scanFrom, scanFrom]
          apply ih hm' (by simpa using hskip)
      | zero =>
          have hfirst := hm before (d :: t) List.suffix_rfl
          rw [List.cons_append] at hfirst
          rw [List.cons_append, scanFrom, scanFrom, hfirst]
          cases m before (d :: t) with
          | none =>
              apply ih hm' (Nat.zero_le _)
          | some found =>
              obtain ⟨a, after⟩ := found
              have hlength : (t ++ c :: rest).length - (after ++ c :: rest).length =
                  t.length - after.length := by
                rw [List.length_append, List.length_append]
                omega
              change a :: scanFrom m (some d) (_ - (after ++ c :: rest).length) _ = _
              rw [hlength, ih hm' (Nat.sub_le _ _)]
              rfl

/-! ### The leftmost match -/

/-- The match at a position of a text, given the character before the text. -/
def matchAt (m : Matcher α) (before : Option Char) (t : Text) (position : Nat) :
    Option (α × Text) :=
  m ((t.take position).getLast?.or before) (t.drop position)

theorem matchAt_succ (c : Char) (before : Option Char) (position : Nat) :
  matchAt m before (c :: t) (position + 1) = matchAt m (some c) t position
  := by
  have hbefore : ((c :: t.take position).getLast?).or before =
      (t.take position).getLast?.or (some c) := by
    rw [List.getLast?_cons]
    cases (t.take position).getLast? with
    | none => rfl
    | some d => rfl
  rw [matchAt, List.take_succ_cons, List.drop_succ_cons, hbefore, matchAt]

theorem scanFirstFrom?_eq_some_iff (hnil : ∀ before, m before [] = none) {before : Option Char}
    {found : α × Text} :
  scanFirstFrom? m before t = some found ↔
    ∃ position, matchAt m before t position = some found ∧
      ∀ earlier < position, matchAt m before t earlier = none
  := by
  induction t generalizing before with
  | nil => simp [scanFirstFrom?, matchAt, hnil]
  | cons c t ih =>
      rw [scanFirstFrom?]
      cases hfirst : m before (c :: t) with
      | some other =>
          constructor
          · intro h
            exact ⟨0, hfirst.trans h, by simp⟩
          · rintro ⟨position, hfound, hnone⟩
            cases position with
            | zero => exact hfirst.symm.trans hfound
            | succ position =>
                have hzero := hfirst.symm.trans (hnone 0 (Nat.succ_pos position))
                contradiction
      | none =>
          rw [ih]
          constructor
          · rintro ⟨position, hfound, hnone⟩
            refine ⟨position + 1, by rwa [matchAt_succ], ?_⟩
            intro earlier hearlier
            cases earlier with
            | zero => exact hfirst
            | succ earlier =>
                rw [matchAt_succ]
                apply hnone earlier (Nat.lt_of_succ_lt_succ hearlier)
          · rintro ⟨position, hfound, hnone⟩
            cases position with
            | zero =>
                have hzero := hfirst.symm.trans hfound
                contradiction
            | succ position =>
                refine ⟨position, by rwa [matchAt_succ] at hfound, ?_⟩
                intro earlier hearlier
                rw [← matchAt_succ c before]
                apply hnone (earlier + 1) (Nat.succ_lt_succ hearlier)

theorem scanFirstFrom?_eq_none_iff (hnil : ∀ before, m before [] = none)
    {before : Option Char} :
  scanFirstFrom? m before t = none ↔ ∀ position, matchAt m before t position = none
  := by
  induction t generalizing before with
  | nil => simp [scanFirstFrom?, matchAt, hnil]
  | cons c t ih =>
      rw [scanFirstFrom?]
      cases hfirst : m before (c :: t) with
      | some found =>
          constructor
          · intro h
            contradiction
          · intro h
            have hzero := hfirst.symm.trans (h 0)
            contradiction
      | none =>
          rw [ih]
          constructor
          · intro h position
            cases position with
            | zero => exact hfirst
            | succ position => rw [matchAt_succ, h]
          · intro h position
            rw [← matchAt_succ c before, h]

end ContractInterface.Text
