import ContractInterface.Proofs.Json.Token
import Mathlib.Data.List.Nodup

/-!
# Reading what has been written

A value is legible if its text determines it: it has no doubles, whose shortest decimals are not
looked at here, no string with half of a UTF-16 pair, no integer that is too long to be written,
and no two members of an object have the same name.  The text of a legible value is read as that
value.  So different legible values have different texts.

The reader spends fuel, and each of its steps takes at least a character off the text; so all
three readers, for values, for items and for members, are looked at in one induction on the fuel.
-/

namespace ContractInterface

namespace Assignments

variable {κ α : Type} [DecidableEq κ]

theorem insert_of_not_mem {table : Assignments κ α} {name : κ} (h : name ∉ table.names)
    (value : α) :
  table.insert name value = table ++ [(name, value)]
  := by
  induction table with
  | nil => rfl
  | cons entry table ih =>
      simp only [names, List.map_cons, List.mem_cons, not_or] at h
      simp [insert, Ne.symm h.1, ih h.2]

theorem foldl_insert_of_nodup {table assignments : Assignments κ α}
    (h : (names (table ++ assignments)).Nodup) :
  assignments.foldl (fun table (name, value) => insert table name value) table =
    table ++ assignments
  := by
  induction assignments generalizing table with
  | nil => simp
  | cons entry assignments ih =>
      obtain ⟨name, value⟩ := entry
      have hname : name ∉ table.names := by
        intro hmem
        rw [names, List.map_append] at h
        exact (List.nodup_append.mp h).2.2 name hmem name List.mem_cons_self rfl
      rw [List.foldl_cons]
      change assignments.foldl _ (table.insert name value) = _
      rw [insert_of_not_mem hname, ih]
      · simp
      · simpa using h

/-- Assignments to different keys are made one after another. -/
theorem ofList_of_nodup {assignments : Assignments κ α} (h : assignments.names.Nodup) :
  ofList assignments = assignments
  := @foldl_insert_of_nodup κ α _ [] assignments h

end Assignments

namespace Json

/-! ### Legible values -/

mutual

/-- The text of a value determines it. -/
def Legible : Json → Prop
  | .null | .bool _ => True
  | .int n => Numeral.isWritable n
  | .float _ => False
  | .str s => ∃ t, s = .text t
  | .arr items => LegibleItems items
  | .obj members => (Assignments.names members).Nodup ∧ LegibleMembers members

/-- The texts of the items of a list determine them. -/
def LegibleItems : List Json → Prop
  | [] => True
  | item :: items => Legible item ∧ LegibleItems items

/-- The texts of the members of an object determine them. -/
def LegibleMembers : List (JsonString × Json) → Prop
  | [] => True
  | (name, value) :: members => (∃ t, name = .text t) ∧ Legible value ∧ LegibleMembers members

end

/-! ### Gaps -/

theorem skipGap_cons {c : Char} (h : isGap c = false) (t : Text) :
  skipGap (c :: t) = c :: t
  := by
  simp [skipGap, h]

@[simp]
theorem skipGap_newline (level : Nat) (t : Text) :
  skipGap (newline level ++ t) = skipGap t
  := by
  have hspaces : ∀ n, skipGap (List.replicate n ' ' ++ t) = skipGap t := by
    intro n
    induction n with
    | zero => rfl
    | succ n ih => simpa [List.replicate_succ, skipGap, isGap] using ih
  simpa [newline, skipGap, isGap] using hspaces (2 * level)

/-- The characters other than digits with which values start. -/
def startMarks : List Char := ['-', 'n', 't', 'f', '"', '[', '\x7b']

/-- A written value starts with a digit or one of a few marks. -/
theorem exists_write_eq_cons {v : Json} (h : v.Legible) (level : Nat) :
  ∃ c t, write level v = c :: t ∧ (c.isDigit ∨ c ∈ startMarks)
  := by
  cases v with
  | null => exact ⟨'n', _, rfl, .inr (by decide)⟩
  | bool b =>
      cases b with
      | false => exact ⟨'f', _, rfl, .inr (by decide)⟩
      | true => exact ⟨'t', _, rfl, .inr (by decide)⟩
  | int n =>
      obtain ⟨c, t, ht, hc⟩ := exists_ofInt_eq_cons n
      exact ⟨c, t, ht, hc.imp_right fun hminus => List.mem_cons.mpr (.inl (by simpa using hminus))⟩
  | float x => exact h.elim
  | str s => exact ⟨'"', _, rfl, .inr (by decide)⟩
  | arr items =>
      cases items with
      | nil => exact ⟨'[', _, rfl, .inr (by decide)⟩
      | cons item items => exact ⟨'[', _, rfl, .inr (by decide)⟩
  | obj members =>
      cases members with
      | nil => exact ⟨'\x7b', _, rfl, .inr (by decide)⟩
      | cons member members => exact ⟨'\x7b', _, rfl, .inr (by decide)⟩

/-- No written value starts with another character. -/
theorem write_append_ne {v : Json} (h : v.Legible) {c : Char} (hdigit : c.isDigit = false)
    (hmark : c ∉ startMarks) (level : Nat) (rest t : Text) :
  write level v ++ rest ≠ c :: t
  := by
  obtain ⟨d, t', ht, hd⟩ := exists_write_eq_cons h level
  rw [ht, List.cons_append]
  intro heq
  apply ne_of_digit_or_mark hd hdigit hmark (List.cons.inj heq).1.symm

theorem skipGap_write {v : Json} (h : v.Legible) (level : Nat) (rest : Text) :
  skipGap (write level v ++ rest) = write level v ++ rest
  := by
  obtain ⟨c, t, ht, hc⟩ := exists_write_eq_cons h level
  have hne (d : Char) (hdigit : d.isDigit = false) (hmark : d ∉ startMarks) : c ≠ d :=
    (ne_of_digit_or_mark hc hdigit hmark).symm
  have hgap : isGap c = false := by
    simp [isGap, hne ' ' rfl (by decide), hne '\t' rfl (by decide), hne '\n' rfl (by decide),
      hne '\r' rfl (by decide)]
  rw [ht, List.cons_append, skipGap_cons hgap]

theorem endsValue_newline (level : Nat) (t : Text) :
  EndsValue (newline level ++ t)
  := ⟨'\n', _, rfl, .inr rfl⟩

theorem endsValue_writeItems (level : Nat) (items : List Json) {t : Text} (h : EndsValue t) :
  EndsValue (writeItems level items ++ t)
  := by
  cases items with
  | nil => exact h
  | cons item items => exact ⟨',', _, rfl, .inl rfl⟩

theorem endsValue_writeMembers (level : Nat) (members : List (JsonString × Json)) {t : Text}
    (h : EndsValue t) :
  EndsValue (writeMembers level members ++ t)
  := by
  cases members with
  | nil => exact h
  | cons member members => exact ⟨',', _, rfl, .inl rfl⟩

/-! ### Values -/

/-- Within a fuel, what has been written is read back: a value, the items of a list from the first
one on, and the members of an object from the first one on. -/
structure ReadsBack (fuel : Nat) : Prop where
  value : ∀ {v : Json} (level : Nat) {rest : Text}, v.Legible → EndsValue rest →
    (write level v).length ≤ fuel → takeValue fuel (write level v ++ rest) = .ok (v, rest)
  items : ∀ {item : Json} {items : List Json} (level outer : Nat) (rest : Text),
    item.Legible → LegibleItems items →
    (write level item).length + (writeItems level items).length < fuel →
    takeItems fuel
        (write level item ++ (writeItems level items ++ (newline outer ++ ']' :: rest))) =
      .ok (item :: items, rest)
  members : ∀ (name : String) {value : Json} {members : List (JsonString × Json)}
    (level outer : Nat) (rest : Text), value.Legible → LegibleMembers members →
    (write level value).length + (writeMembers level members).length < fuel →
    takeMembers fuel (writeString (.text name) ++ (": ".toList ++ (write level value ++
        (writeMembers level members ++ (newline outer ++ '\x7d' :: rest))))) =
      .ok ((.text name, value) :: members, rest)

theorem skipGap_writeString (name : String) (rest : Text) :
  skipGap (writeString (.text name) ++ rest) = writeString (.text name) ++ rest
  := rfl

namespace ReadsBack

variable {fuel : Nat} (h : ReadsBack fuel)

include h

theorem takeItems_succ {item : Json} {items : List Json} (level outer : Nat) (rest : Text)
    (hitem : item.Legible) (hitems : LegibleItems items)
    (hfuel : (write level item).length + (writeItems level items).length < fuel + 1) :
  takeItems (fuel + 1)
      (write level item ++ (writeItems level items ++ (newline outer ++ ']' :: rest))) =
    .ok (item :: items, rest)
  := by
  have hends := endsValue_writeItems level items (endsValue_newline outer (']' :: rest))
  rw [takeItems, h.value level hitem hends (by omega)]
  cases items with
  | nil =>
      simp only [writeItems, List.nil_append, bind, Except.bind, skipGap_newline]
      rfl
  | cons next items =>
      obtain ⟨hnext, hitems⟩ := hitems
      simp only [writeItems, List.length_cons, List.length_append] at hfuel
      have hrest := h.items level outer rest hnext hitems (by omega)
      simp only [writeItems, List.cons_append, List.append_assoc, bind, Except.bind,
        @skipGap_cons ',' rfl, skipGap_newline, skipGap_write hnext, hrest]
      rfl

theorem takeMembers_succ (name : String) {value : Json} {members : List (JsonString × Json)}
    (level outer : Nat) (rest : Text) (hvalue : value.Legible) (hmembers : LegibleMembers members)
    (hfuel : (write level value).length + (writeMembers level members).length < fuel + 1) :
  takeMembers (fuel + 1) (writeString (.text name) ++ (": ".toList ++ (write level value ++
      (writeMembers level members ++ (newline outer ++ '\x7d' :: rest))))) =
    .ok ((.text name, value) :: members, rest)
  := by
  have hends := endsValue_writeMembers level members (endsValue_newline outer ('\x7d' :: rest))
  have hcolon (t : Text) : skipGap (": ".toList ++ t) = ':' :: ' ' :: t := rfl
  have hspace (t : Text) : skipGap (' ' :: t) = skipGap t := rfl
  obtain ⟨t, ht, hstring⟩ := takeString_writeString name (": ".toList ++ (write level value ++
    (writeMembers level members ++ (newline outer ++ '\x7d' :: rest))))
  rw [ht, takeMembers, hstring]
  simp only [bind, Except.bind, hcolon, hspace, skipGap_write hvalue,
    h.value level hvalue hends (by omega)]
  cases members with
  | nil =>
      simp only [writeMembers, List.nil_append, skipGap_newline]
      rfl
  | cons member members =>
      obtain ⟨next, value'⟩ := member
      obtain ⟨⟨next, rfl⟩, hvalue', hmembers⟩ := hmembers
      simp only [writeMembers, List.length_cons, List.length_append] at hfuel
      have hrest := h.members next level outer rest hvalue' hmembers (by omega)
      simp only [writeMembers, List.cons_append, List.append_assoc, @skipGap_cons ',' rfl,
        skipGap_newline, skipGap_writeString, hrest]
      rfl

theorem takeValue_arr {item : Json} {items : List Json} (level : Nat) (rest : Text)
    (hitem : item.Legible) (hitems : LegibleItems items)
    (hfuel : (write level (.arr (item :: items))).length ≤ fuel + 1) :
  takeValue (fuel + 1) (write level (.arr (item :: items)) ++ rest) =
    .ok (.arr (item :: items), rest)
  := by
  simp only [write, List.cons_append, List.length_cons, List.length_append, newline] at hfuel
  have hrest := h.items (level + 1) level rest hitem hitems (by omega)
  simp only [write, List.cons_append, List.append_assoc, List.nil_append, takeValue,
    skipGap_newline, skipGap_write hitem]
  split
  · rename_i t ht
    exact absurd ht (write_append_ne hitem rfl (by decide) _ _ _)
  · rw [hrest]
    rfl

theorem takeValue_obj (name : String) {value : Json} {members : List (JsonString × Json)}
    (level : Nat) (rest : Text) (hvalue : value.Legible) (hmembers : LegibleMembers members)
    (hnames : (Assignments.names ((.text name, value) :: members)).Nodup)
    (hfuel : (write level (.obj ((.text name, value) :: members))).length ≤ fuel + 1) :
  takeValue (fuel + 1) (write level (.obj ((.text name, value) :: members)) ++ rest) =
    .ok (.obj ((.text name, value) :: members), rest)
  := by
  simp only [write, List.cons_append, List.length_cons, List.length_append, newline] at hfuel
  have hrest := h.members name (level + 1) level rest hvalue hmembers (by omega)
  simp only [write, List.cons_append, List.append_assoc, List.nil_append, takeValue,
    skipGap_newline, skipGap_writeString]
  split
  · rename_i t ht
    obtain ⟨hquote, -⟩ := List.cons.inj ht
    contradiction
  · rw [hrest]
    simp only [bind, Except.bind, pure, Except.pure, Assignments.ofList_of_nodup hnames]

theorem takeValue_succ {v : Json} (level : Nat) {rest : Text} (hv : v.Legible)
    (hrest : EndsValue rest) (hfuel : (write level v).length ≤ fuel + 1) :
  takeValue (fuel + 1) (write level v ++ rest) = .ok (v, rest)
  := by
  cases v with
  | null => rfl
  | bool b =>
      cases b with
      | false => rfl
      | true => rfl
  | int n => exact takeValue_ofInt hv hrest fuel
  | float x => exact hv.elim
  | str s =>
      obtain ⟨s, rfl⟩ := hv
      obtain ⟨t, ht, hstring⟩ := takeString_writeString s rest
      rw [write, ht, takeValue, hstring]
      rfl
  | arr items =>
      cases items with
      | nil => rfl
      | cons item items => exact h.takeValue_arr level rest hv.1 hv.2 hfuel
  | obj members =>
      cases members with
      | nil => rfl
      | cons member members =>
          obtain ⟨name, value⟩ := member
          obtain ⟨hnames, ⟨name, rfl⟩, hvalue, hmembers⟩ := hv
          exact h.takeValue_obj name level rest hvalue hmembers hnames hfuel

end ReadsBack

/-- Whatever the fuel, what has been written is read back, if the fuel suffices for its text. -/
theorem readsBack (fuel : Nat) :
  ReadsBack fuel
  := by
  induction fuel with
  | zero =>
      constructor
      · intro v level rest hv _ hfuel
        obtain ⟨c, t, ht, -⟩ := exists_write_eq_cons hv level
        simp [ht] at hfuel
      · intro item items level outer rest _ _ hfuel
        contradiction
      · intro name value members level outer rest _ _ hfuel
        contradiction
  | succ fuel ih =>
      constructor
      · intro v level rest
        apply ih.takeValue_succ
      · intro item items
        apply ih.takeItems_succ
      · intro name value members
        apply ih.takeMembers_succ

/-! ### Texts -/

mutual

theorem Legible.isWritable :
  (v : Json) → v.Legible → v.isWritable
  | .null, _ | .bool _, _ | .str _, _ => rfl
  | .int _, h => h
  | .arr items, h => LegibleItems.itemsWritable items h
  | .obj members, h => LegibleMembers.membersWritable members h.2

theorem LegibleItems.itemsWritable :
  (items : List Json) → LegibleItems items → Json.itemsWritable items
  | [], _ => rfl
  | item :: items, h => by
      rw [Json.itemsWritable, Legible.isWritable item h.1,
        LegibleItems.itemsWritable items h.2]
      rfl

theorem LegibleMembers.membersWritable :
  (members : List (JsonString × Json)) → LegibleMembers members → Json.membersWritable members
  | [], _ => rfl
  | (_, value) :: members, h => by
      rw [Json.membersWritable, Legible.isWritable value h.2.1,
        LegibleMembers.membersWritable members h.2.2]
      rfl

end

/-- A legible value has a text, and its text is read as the value. -/
theorem exists_render {v : Json} (h : v.Legible) :
  ∃ t, v.render = .ok t ∧ readText t = .ok v
  := by
  use write 0 v ++ ['\n']
  constructor
  · rw [render, if_pos (h.isWritable v)]
  · have hmark : Text.hasPrefix [Char.ofNat 0xfeff] (write 0 v ++ ['\n']) = false := by
      obtain ⟨c, t, ht, hc⟩ := exists_write_eq_cons h 0
      have hne : Char.ofNat 0xfeff ≠ c := ne_of_digit_or_mark hc (by decide) (by decide)
      simp [ht, Text.hasPrefix, Text.dropPrefix?, hne]
    have hvalue := (readsBack (2 * (write 0 v ++ ['\n']).length + 1)).value 0 h
      ⟨'\n', [], rfl, .inr rfl⟩ (by simp only [List.length_append]; omega)
    rw [readText, hmark, skipGap_write h, hvalue]
    rfl

/-- Different legible values have different texts. -/
theorem eq_of_render_eq {v w : Json} (hv : v.Legible) (hw : w.Legible)
    (h : v.render = w.render) :
  v = w
  := by
  obtain ⟨t, ht, hreadv⟩ := exists_render hv
  obtain ⟨t', ht', hreadw⟩ := exists_render hw
  rw [h, ht'] at ht
  obtain rfl := Except.ok.inj ht
  exact Except.ok.inj (hreadv.symm.trans hreadw)

end Json

end ContractInterface
