import ContractInterface.Text.Basic

/-!
# Scanning

A scanner tries a matcher at every position from left to right.  After a match it goes on where
the match ended, so matches never overlap.  The matcher sees the character before its position,
which decides word and line boundaries, and returns what it found with the text that follows it.
-/

namespace ContractInterface

/-- A matcher: given the character before a position and the text from there on, what it
recognises and the text after it. -/
abbrev Matcher (α : Type) := Option Char → Text → Option (α × Text)

namespace Text

/-- The matches from a position on, after passing over `skip` characters. -/
def scanFrom {α : Type} (m : Matcher α) : Option Char → Nat → Text → List α
  | _, _, [] => []
  | _, skip + 1, c :: t => scanFrom m (some c) skip t
  | before, 0, c :: t =>
    match m before (c :: t) with
    | some (a, rest) => a :: scanFrom m (some c) (t.length - rest.length) t
    | none => scanFrom m (some c) 0 t

/-- The leftmost matches in a text that do not overlap, in order. -/
def scan {α : Type} (m : Matcher α) (t : Text) : List α :=
  scanFrom m none 0 t

/-- The leftmost match from a position on. -/
def scanFirstFrom? {α : Type} (m : Matcher α) : Option Char → Text → Option (α × Text)
  | _, [] => none
  | before, c :: t =>
    match m before (c :: t) with
    | some found => some found
    | none => scanFirstFrom? m (some c) t

/-- The leftmost match in a text. -/
def scanFirst? {α : Type} (m : Matcher α) (t : Text) : Option (α × Text) :=
  scanFirstFrom? m none t

end Text

end ContractInterface
