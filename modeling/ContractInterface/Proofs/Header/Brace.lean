import ContractInterface.Header.StructBody
import Mathlib.Data.List.Basic
import Mathlib.Data.List.Infix
import Mathlib.Data.Nat.Find

/-!
# Matching braces

The surplus of a text is the number of braces that it opens, less the number of those that it
closes.  In a balanced text it is never negative from the left, and zero in the end.  The search
for the brace that closes a number of open ones finds the first brace at which the surplus makes
up for that number (`closingBrace?_eq_some_iff`); so what precedes this brace is balanced, if the
search starts with one open brace.
-/

namespace ContractInterface.Header

/-! ### The surplus of a text -/

/-- The number of braces that a text opens, less the number of those that it closes. -/
def surplus (t : Text) : Int :=
  t.count '{' - t.count '}'

@[simp]
theorem surplus_nil : surplus [] = 0 := rfl

theorem surplus_append (s t : Text) :
  surplus (s ++ t) = surplus s + surplus t
  := by
  simp only [surplus, List.count_append]
  omega

theorem surplus_cons (c : Char) (t : Text) :
  surplus (c :: t) = surplus [c] + surplus t
  := surplus_append [c] t

theorem surplus_open : surplus ['{'] = 1 := by decide

theorem surplus_close : surplus ['}'] = -1 := by decide

theorem surplus_singleton {c : Char} (hopen : c ≠ '{') (hclose : c ≠ '}') :
  surplus [c] = 0
  := by
  simp [surplus, hopen, hclose]

/-- Texts whose braces match: no beginning closes more braces than it opens, and in the end as
many are closed as opened. -/
structure Balanced (t : Text) : Prop where
  nested : ∀ front, front <+: t → 0 ≤ surplus front
  even : surplus t = 0

instance (t : Text) : Decidable (Balanced t) :=
  decidable_of_iff ((∀ front ∈ t.inits, 0 ≤ surplus front) ∧ surplus t = 0)
    ⟨fun ⟨nested, even⟩ => ⟨fun front h => nested front ((List.mem_inits front t).mpr h), even⟩,
      fun h => ⟨fun front hmem => h.nested front ((List.mem_inits front t).mp hmem), h.even⟩⟩

/-! ### The closing brace -/

/-- The brace at a place closes the last one of a number of open braces. -/
def ClosesAt (depth : Int) (t : Text) (n : Nat) : Prop :=
  t[n]? = some '}' ∧ depth + surplus (t.take (n + 1)) = 0

variable {depth : Int} {c : Char} {t : Text} {n : Nat}

theorem closesAt_zero :
  ClosesAt depth (c :: t) 0 ↔ c = '}' ∧ depth = 1
  := by
  rw [ClosesAt, List.getElem?_cons_zero, Option.some.injEq, List.take_succ_cons, List.take_zero]
  apply and_congr_right
  rintro rfl
  rw [surplus_close]
  omega

theorem closesAt_succ :
  ClosesAt depth (c :: t) (n + 1) ↔ ClosesAt (depth + surplus [c]) t n
  := by
  rw [ClosesAt, ClosesAt, List.getElem?_cons_succ, List.take_succ_cons, surplus_cons, Int.add_assoc]

/-- One step of the search. -/
theorem closingBrace?_cons :
  closingBrace? depth (c :: t) =
    if c = '}' ∧ depth = 1 then some 0
    else (closingBrace? (depth + surplus [c]) t).map (· + 1)
  := by
  rw [closingBrace?]
  by_cases hopen : c = '{'
  · subst hopen
    simp [surplus_open]
  · by_cases hclose : c = '}'
    · subst hclose
      simp [surplus_close, Int.sub_eq_add_neg]
    · simp [surplus_singleton hopen hclose, hopen, hclose]

/-- The search finds the first brace that closes the open ones. -/
theorem closingBrace?_eq_some_iff :
  closingBrace? depth t = some n ↔ ClosesAt depth t n ∧ ∀ m < n, ¬ClosesAt depth t m
  := by
  induction t generalizing depth n with
  | nil => simp [closingBrace?, ClosesAt]
  | cons c t ih =>
      rw [closingBrace?_cons]
      by_cases hzero : ClosesAt depth (c :: t) 0
      · rw [if_pos (closesAt_zero.mp hzero), Option.some.injEq]
        constructor
        · rintro rfl
          exact ⟨hzero, by simp⟩
        · rintro ⟨-, hleast⟩
          by_contra hne
          exact hleast 0 (by omega) hzero
      · rw [if_neg fun h => hzero (closesAt_zero.mpr h), Option.map_eq_some_iff]
        constructor
        · rintro ⟨n, hn, rfl⟩
          obtain ⟨hcloses, hleast⟩ := ih.mp hn
          refine ⟨closesAt_succ.mpr hcloses, ?_⟩
          intro m hm
          cases m with
          | zero => exact hzero
          | succ m => exact fun h => hleast m (by omega) (closesAt_succ.mp h)
        · rintro ⟨hcloses, hleast⟩
          cases n with
          | zero => contradiction
          | succ n =>
              refine ⟨n, ih.mpr ⟨closesAt_succ.mp hcloses, ?_⟩, rfl⟩
              intro m hm h
              exact hleast (m + 1) (by omega) (closesAt_succ.mpr h)

theorem closingBrace?_eq_none_iff :
  closingBrace? depth t = none ↔ ∀ n, ¬ClosesAt depth t n
  := by
  classical
  constructor
  · intro hnone n hn
    -- a first place would have been found
    have hfirst := closingBrace?_eq_some_iff.mpr
      ⟨Nat.find_spec ⟨n, hn⟩, fun m hm => Nat.find_min ⟨n, hn⟩ hm⟩
    rw [hnone] at hfirst
    contradiction
  · intro hnever
    cases h : closingBrace? depth t with
    | none => rfl
    | some n => exact absurd (closingBrace?_eq_some_iff.mp h).1 (hnever n)

/-- Up to the brace that is found, the open ones are not all closed. -/
theorem depth_add_surplus_pos (h : closingBrace? depth t = some n) (hdepth : 0 < depth) :
  ∀ m ≤ n, 0 < depth + surplus (t.take m)
  := by
  induction t generalizing depth n with
  | nil => contradiction
  | cons c t ih =>
      intro m hm
      cases m with
      | zero => simpa using hdepth
      | succ m =>
          rw [closingBrace?_cons] at h
          split at h
          · obtain rfl := Option.some.inj h
            contradiction
          · rename_i hstop
            obtain ⟨n, hn, rfl⟩ := Option.map_eq_some_iff.mp h
            have hpos : 0 < depth + surplus [c] := by
              by_cases hclose : c = '}'
              · subst hclose
                have hne : depth ≠ 1 := fun hone => hstop ⟨rfl, hone⟩
                rw [surplus_close]
                omega
              · have hle : 0 ≤ surplus [c] := by simp [surplus, hclose]
                omega
            have hrest := ih hn hpos m (by omega)
            rw [List.take_succ_cons, surplus_cons]
            omega

/-- What stands before the brace that closes one open brace is balanced. -/
theorem balanced_take (h : closingBrace? 1 t = some n) :
  Balanced (t.take n)
  where
  nested := by
    intro front hfront
    obtain ⟨hwithin, hlength⟩ := List.prefix_take_iff.mp hfront
    have hpos := depth_add_surplus_pos h Int.one_pos front.length hlength
    rw [← List.prefix_iff_eq_take.mp hwithin] at hpos
    omega
  even := by
    obtain ⟨⟨hbrace, hsurplus⟩, -⟩ := closingBrace?_eq_some_iff.mp h
    rw [List.take_add_one, hbrace, surplus_append, Option.toList_some, surplus_close] at hsurplus
    omega

end ContractInterface.Header
