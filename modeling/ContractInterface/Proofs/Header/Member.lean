import ContractInterface.Header.Member
import Mathlib.Data.List.Basic

/-!
# Declared names

The type of a declaration is the shortest text in front that leaves a list of names, or a name
with lengths, behind it.  So a declaration can be inverted: what it gives is a type, and one or
more identifiers.
-/

namespace ContractInterface

namespace Text

theorem isIdent_of_takeIdent? {t name rest : Text} (h : takeIdent? t = some (name, rest)) :
  isIdent name
  := by
  cases t with
  | nil => contradiction
  | cons c t =>
      simp only [takeIdent?, Option.ite_none_right_eq_some, Option.some.injEq,
        Prod.mk.injEq] at h
      obtain ⟨hc, rfl, -⟩ := h
      simp only [isIdent, hc, Bool.true_and]
      apply List.all_takeWhile

end Text

namespace Header

/-- The names that a declaration gives to data members. -/
def Member.names : Member → List Text
  | .array _ name _ => [name]
  | .plain _ names => names

namespace Statement

/-! ### The type of a declaration -/

theorem afterType?_eq_some {α : Type} {form : Text → Option α} {t type : Text} {a : α}
    (h : afterType? form t = some (type, a)) :
  ∃ rest, t = type ++ rest ∧ form rest = some a
  := by
  induction t generalizing type with
  | nil => contradiction
  | cons c t ih =>
      rw [afterType?] at h
      split at h
      · rename_i b hb
        obtain ⟨rfl, rfl⟩ := Prod.mk.inj (Option.some.inj h)
        use t, rfl, hb
      · obtain ⟨⟨type', a'⟩, h', heq⟩ := Option.map_eq_some_iff.mp h
        obtain ⟨rfl, rfl⟩ := Prod.mk.inj heq
        obtain ⟨rest, rfl, hform⟩ := ih h'
        use rest, rfl, hform

/-! ### Names are identifiers -/

theorem isIdent_of_arrayParts? {t name : Text} {lengths : List Text}
    (h : arrayParts? t = some (name, lengths)) :
  Text.isIdent name
  := by
  simp only [arrayParts?, Option.bind_eq_bind, Option.bind_eq_some_iff] at h
  obtain ⟨u, -, ⟨ident, v⟩, hident, ls, -, h⟩ := h
  cases ls with
  | nil => contradiction
  | cons l ls =>
      obtain ⟨rfl, -⟩ := Prod.mk.inj (Option.some.inj h)
      apply Text.isIdent_of_takeIdent? hident

theorem isIdent_of_plainNames? {t : Text} {names : List Text}
    (h : plainNames? t = some names) :
  ∀ name ∈ names, Text.isIdent name
  := by
  simp only [plainNames?, Option.bind_eq_bind, Option.bind_eq_some_iff,
    Option.ite_none_right_eq_some, Option.some.injEq] at h
  obtain ⟨u, -, hall, rfl⟩ := h
  apply List.all_eq_true.mp hall

theorem isIdent_of_member? {t : Text} {m : Member} (h : member? t = some m) :
  ∀ name ∈ m.names, Text.isIdent name
  := by
  unfold member? at h
  split at h
  · rename_i type ident lengths harray
    obtain rfl := Option.some.inj h
    obtain ⟨rest, -, hparts⟩ := afterType?_eq_some harray
    intro name hname
    obtain rfl := List.mem_singleton.mp hname
    apply isIdent_of_arrayParts? hparts
  · obtain ⟨⟨type, names⟩, hplain, rfl⟩ := Option.map_eq_some_iff.mp h
    obtain ⟨rest, -, hnames⟩ := afterType?_eq_some hplain
    apply isIdent_of_plainNames? hnames

/-- The names that a statement declares are identifiers. -/
theorem isIdent_of_ofText {statement : Text} {m : Member} (h : ofText statement = .declares m) :
  ∀ name ∈ m.names, Text.isIdent name
  := by
  simp only [ofText] at h
  split at h
  · contradiction
  · split at h
    · rename_i m' hm
      obtain rfl := Statement.declares.inj h
      apply isIdent_of_member? hm
    · contradiction

end Statement

end Header

end ContractInterface
