import ContractInterface.Json.Reader
import ContractInterface.Proofs.Except
import ContractInterface.Proofs.Text.Numeral

/-!
# What is read can be written

An integer with too many digits is not read, so every integer in a value that has been read is short
enough to be written.  The readers of values, of items and of members call each other with less
fuel, so for them this goes by induction on the fuel.
-/

namespace ContractInterface

namespace Json

/-! ### Members -/

theorem isWritable_getD {members : List (JsonString × Json)} (h : membersWritable members)
    (name : JsonString) :
  ((Assignments.get? members name).getD .null).isWritable
  := by
  induction members with
  | nil => rfl
  | cons member members ih =>
      rw [membersWritable, Bool.and_eq_true] at h
      rw [Assignments.get?]
      split
      · exact h.1
      · exact ih h.2

theorem membersWritable_insert {members : List (JsonString × Json)} {name : JsonString}
    {value : Json} (hmembers : membersWritable members) (hvalue : value.isWritable) :
  membersWritable (Assignments.insert members name value)
  := by
  induction members with
  | nil => rw [Assignments.insert, membersWritable, hvalue, membersWritable, Bool.and_self]
  | cons member members ih =>
      obtain ⟨key, old⟩ := member
      rw [membersWritable, Bool.and_eq_true] at hmembers
      obtain ⟨hold, hmembers⟩ := hmembers
      rw [Assignments.insert]
      split
      · rw [membersWritable, hvalue, hmembers, Bool.and_self]
      · rw [membersWritable, hold, ih hmembers, Bool.and_self]

/-- Members that are given again lose only values. -/
theorem membersWritable_ofList {members : List (JsonString × Json)}
    (h : membersWritable members) :
  membersWritable (Assignments.ofList members)
  := by
  have hfold : ∀ table : Assignments JsonString Json, membersWritable table →
      membersWritable (members.foldl (fun table (name, value) =>
        Assignments.insert table name value) table) := by
    induction members with
    | nil => exact fun _ htable => htable
    | cons member members ih =>
        rw [membersWritable, Bool.and_eq_true] at h
        intro table htable
        apply ih h.2
        apply membersWritable_insert htable h.1
  apply hfold [] rfl

/-! ### Readers -/

section Readers

variable {t rest : Text}

theorem isWritable_of_takeNumber? {v : Json} (h : takeNumber? t = .ok (some (v, rest))) :
  v.isWritable
  := by
  rw [takeNumber?.eq_def] at h
  dsimp only at h
  split at h
  · cases h
  · rename_i whole left hwhole
    split at h
    · split at h
      · rename_i n hread
        obtain ⟨rfl, -⟩ := Prod.mk.inj (Option.some.inj (Except.ok.inj h))
        rw [isWritable, Numeral.isWritable_signed, Numeral.isWritable_of_read hread]
      · cases h
    · obtain ⟨rfl, -⟩ := Prod.mk.inj (Option.some.inj (Except.ok.inj h))
      rfl
    · obtain ⟨rfl, -⟩ := Prod.mk.inj (Option.some.inj (Except.ok.inj h))
      rfl

theorem isWritable_of_takeAtom {v : Json} (h : takeAtom t = .ok (v, rest)) :
  v.isWritable
  := by
  have hliterals : ∀ literal ∈ literals, literal.2.isWritable := by decide
  rw [takeAtom] at h
  split at h
  · rename_i found hfound
    obtain ⟨⟨word, literal⟩, hmem, hfound⟩ := List.exists_of_findSome?_eq_some hfound
    obtain ⟨left, -, rfl⟩ := Option.map_eq_some_iff.mp hfound
    obtain ⟨rfl, -⟩ := Prod.mk.inj (Except.ok.inj h)
    exact hliterals _ hmem
  · obtain ⟨found, hfound, h⟩ := bind_eq_ok_iff.mp h
    cases found with
    | none => contradiction
    | some found =>
        obtain rfl := Except.ok.inj h
        apply isWritable_of_takeNumber? hfound

/-- With some fuel, the readers give nothing that cannot be written. -/
structure GivesWritable (fuel : Nat) : Prop where
  value {t rest : Text} {v : Json} (h : takeValue fuel t = .ok (v, rest)) : v.isWritable
  items {t rest : Text} {items : List Json} (h : takeItems fuel t = .ok (items, rest)) :
    itemsWritable items
  members {t rest : Text} {members : List (JsonString × Json)}
    (h : takeMembers fuel t = .ok (members, rest)) : membersWritable members

section Step

variable {fuel : Nat} (ih : GivesWritable fuel)

include ih

theorem GivesWritable.value_succ {v : Json} (h : takeValue (fuel + 1) t = .ok (v, rest)) :
  v.isWritable
  := by
  rw [takeValue.eq_def] at h
  dsimp only at h
  split at h
  · contradiction
  · obtain ⟨⟨s, left⟩, -, h⟩ := bind_eq_ok_iff.mp h
    obtain ⟨rfl, -⟩ := Prod.mk.inj (Except.ok.inj h)
    rfl
  · rename_i fuel' _ hfuel
    obtain rfl : fuel = fuel' := Nat.succ.inj hfuel
    split at h
    · obtain ⟨rfl, -⟩ := Prod.mk.inj (Except.ok.inj h)
      rfl
    · obtain ⟨⟨items, left⟩, hitems, h⟩ := bind_eq_ok_iff.mp h
      obtain ⟨rfl, -⟩ := Prod.mk.inj (Except.ok.inj h)
      exact ih.items hitems
  · rename_i fuel' _ hfuel
    obtain rfl : fuel = fuel' := Nat.succ.inj hfuel
    split at h
    · obtain ⟨rfl, -⟩ := Prod.mk.inj (Except.ok.inj h)
      rfl
    · obtain ⟨⟨members, left⟩, hmembers, h⟩ := bind_eq_ok_iff.mp h
      obtain ⟨rfl, -⟩ := Prod.mk.inj (Except.ok.inj h)
      exact membersWritable_ofList (ih.members hmembers)
  · exact isWritable_of_takeAtom h

theorem GivesWritable.items_succ {items : List Json}
    (h : takeItems (fuel + 1) t = .ok (items, rest)) :
  itemsWritable items
  := by
  rw [takeItems] at h
  obtain ⟨⟨item, left⟩, hitem, h⟩ := bind_eq_ok_iff.mp h
  have hwritable := ih.value hitem
  dsimp only at h
  split at h
  · obtain ⟨rfl, -⟩ := Prod.mk.inj (Except.ok.inj h)
    rw [itemsWritable, hwritable, itemsWritable, Bool.and_self]
  · obtain ⟨⟨others, left⟩, hothers, h⟩ := bind_eq_ok_iff.mp h
    obtain ⟨rfl, -⟩ := Prod.mk.inj (Except.ok.inj h)
    rw [itemsWritable, hwritable, ih.items hothers, Bool.and_self]
  · contradiction

theorem GivesWritable.members_succ {members : List (JsonString × Json)}
    (h : takeMembers (fuel + 1) t = .ok (members, rest)) :
  membersWritable members
  := by
  rw [takeMembers.eq_def] at h
  dsimp only at h
  split at h
  · contradiction
  · rename_i fuel' _ hfuel
    obtain rfl : fuel = fuel' := Nat.succ.inj hfuel
    obtain ⟨⟨name, left⟩, -, h⟩ := bind_eq_ok_iff.mp h
    dsimp only at h
    split at h
    · obtain ⟨⟨value, left⟩, hvalue, h⟩ := bind_eq_ok_iff.mp h
      have hwritable := ih.value hvalue
      dsimp only at h
      split at h
      · obtain ⟨rfl, -⟩ := Prod.mk.inj (Except.ok.inj h)
        rw [membersWritable, hwritable, membersWritable, Bool.and_self]
      · obtain ⟨⟨others, left⟩, hothers, h⟩ := bind_eq_ok_iff.mp h
        obtain ⟨rfl, -⟩ := Prod.mk.inj (Except.ok.inj h)
        rw [membersWritable, hwritable, ih.members hothers, Bool.and_self]
      · contradiction
    · contradiction
  · contradiction

end Step

theorem givesWritable (fuel : Nat) :
  GivesWritable fuel
  := by
  induction fuel with
  | zero =>
      constructor
      · intro t rest v h
        contradiction
      · intro t rest items h
        contradiction
      · intro t rest members h
        contradiction
  | succ fuel ih =>
      constructor
      · intro t rest v
        apply ih.value_succ
      · intro t rest items
        apply ih.items_succ
      · intro t rest members
        apply ih.members_succ

/-- A value that has been read can be written. -/
theorem isWritable_of_readText {v : Json} (h : readText t = .ok v) :
  v.isWritable
  := by
  rw [readText] at h
  split at h
  · contradiction
  · obtain ⟨⟨value, left⟩, hvalue, h⟩ := bind_eq_ok_iff.mp h
    dsimp only at h
    split at h
    · obtain rfl := Except.ok.inj h
      exact (givesWritable _).value hvalue
    · contradiction

end Readers

end Json

end ContractInterface
