import ContractInterface.Proofs.Except
import ContractInterface.Proofs.Text.Word
import ContractInterface.Stanza

/-!
# Where the stanzas of a list of contracts come from

The lines of a list of contracts are read one after another into a draft.  Between two lines with
an index the draft depends on the lines alone: it has the last state type and the last header
among them (`foldl_read`).  So the stanzas that are found are the ones that stand in the list
(`Occurrence`), each with a line that gives its index, one that gives its name, one that includes
its header, and no other line with an index before the next stanza.

The index of a stanza is the one on the closest line above its header on which an index can be
read.  A line that defines an index by anything else than digits is passed over like any other
line, and does not end the stanza above it.
-/

namespace ContractInterface.Stanza

/-! ### Reading lines into a draft -/

/-- The state type that a line gives. -/
def stateTypeOf? (line : Text) : Option Text :=
  match Line.ofText line with
  | .stateType name => some name
  | _ => none

/-- The header that a line gives. -/
def headerOf? (line : Text) : Option Text :=
  match Line.ofText line with
  | .header path => some path
  | _ => none

/-- A draft after a line that gives no index. -/
def Draft.read (d : Draft) (line : Text) : Draft :=
  ⟨d.index, (stateTypeOf? line).or d.name, (headerOf? line).or d.header⟩

theorem ofText_eq_index {line digits : Text} (h : indexLine? line = some digits) :
  Line.ofText line = .index digits
  := by
  rw [Line.ofText, h]

theorem ofText_ne_index {line : Text} (h : indexLine? line = none) (digits : Text) :
  Line.ofText line ≠ .index digits
  := by
  rw [Line.ofText, h]
  cases stateTypeLine? line with
  | some name => simp
  | none =>
      cases headerLine? line with
      | some path => simp
      | none => simp

theorem collect_of_none {line : Text} (h : indexLine? line = none) (d : Draft)
    (lines : List Line) :
  collect d (Line.ofText line :: lines) = collect (d.read line) lines
  := by
  cases hline : Line.ofText line with
  | index digits => exact absurd hline (ofText_ne_index h digits)
  | stateType name => simp [collect, Draft.read, stateTypeOf?, headerOf?, hline]
  | header path => simp [collect, Draft.read, stateTypeOf?, headerOf?, hline]
  | other => simp [collect, Draft.read, stateTypeOf?, headerOf?, hline]

/-- Lines leave the last state type and the last header among them. -/
theorem foldl_read (d : Draft) (lines : List Text) :
  lines.foldl Draft.read d =
    ⟨d.index, (lines.filterMap stateTypeOf?).getLast?.or d.name,
      (lines.filterMap headerOf?).getLast?.or d.header⟩
  := by
  induction lines generalizing d with
  | nil => rfl
  | cons line lines ih =>
      rw [List.foldl_cons, ih, Draft.read, List.filterMap_cons, List.filterMap_cons]
      cases stateTypeOf? line <;> cases headerOf? line <;>
        simp [List.getLast?_cons]

/-! ### Stanzas among lines -/

/-- A draft is completed to a stanza by the lines up to the next one with an index. -/
def Completes (d : Draft) (lines : List Text) (s : Stanza) : Prop :=
  ∃ body below, lines = body ++ below ∧ (∀ line ∈ body, indexLine? line = none) ∧
    (∀ line ∈ below.head?, indexLine? line ≠ none) ∧ (body.foldl Draft.read d).complete? = some s

/-- A line with an index opens a stanza that is completed by the lines below it. -/
def Opens (lines : List Text) (s : Stanza) : Prop :=
  ∃ above start below digits index, lines = above ++ start :: below ∧
    indexLine? start = some digits ∧ Numeral.read digits = .ok index ∧
    Completes ⟨some index, none, none⟩ below s

theorem completes_nil {d : Draft} {s : Stanza} :
  Completes d [] s ↔ d.complete? = some s
  := by
  constructor
  · rintro ⟨body, below, hlines, -, -, hcomplete⟩
    obtain ⟨rfl, rfl⟩ := List.append_eq_nil_iff.mp hlines.symm
    exact hcomplete
  · intro hcomplete
    exact ⟨[], [], rfl, by simp, by simp, hcomplete⟩

theorem completes_cons_of_some {d : Draft} {s : Stanza} {line : Text} {lines : List Text}
    (h : indexLine? line ≠ none) :
  Completes d (line :: lines) s ↔ d.complete? = some s
  := by
  constructor
  · rintro ⟨body, below, hlines, hbody, -, hcomplete⟩
    cases body with
    | nil => exact hcomplete
    | cons first body =>
        obtain ⟨rfl, -⟩ := List.cons.inj hlines
        exact absurd (hbody line List.mem_cons_self) h
  · intro hcomplete
    exact ⟨[], line :: lines, rfl, by simp, by simpa using h, hcomplete⟩

theorem completes_cons_of_none {d : Draft} {s : Stanza} {line : Text} {lines : List Text}
    (h : indexLine? line = none) :
  Completes d (line :: lines) s ↔ Completes (d.read line) lines s
  := by
  constructor
  · rintro ⟨body, below, hlines, hbody, hbelow, hcomplete⟩
    cases body with
    | nil =>
        obtain rfl : line :: lines = below := hlines
        exact absurd h (hbelow line rfl)
    | cons first body =>
        obtain ⟨rfl, rfl⟩ := List.cons.inj hlines
        exact ⟨body, below, rfl, fun l hl => hbody l (List.mem_cons_of_mem line hl), hbelow,
          hcomplete⟩
  · rintro ⟨body, below, rfl, hbody, hbelow, hcomplete⟩
    exact ⟨line :: body, below, rfl, List.forall_mem_cons.mpr ⟨h, hbody⟩, hbelow, hcomplete⟩

theorem opens_cons {s : Stanza} {line : Text} {lines : List Text} :
  Opens (line :: lines) s ↔
    (∃ digits index, indexLine? line = some digits ∧ Numeral.read digits = .ok index ∧
      Completes ⟨some index, none, none⟩ lines s) ∨ Opens lines s
  := by
  constructor
  · rintro ⟨above, start, below, digits, index, hlines, hstart, hindex, hbelow⟩
    cases above with
    | nil =>
        obtain ⟨rfl, rfl⟩ := List.cons.inj hlines
        exact .inl ⟨digits, index, hstart, hindex, hbelow⟩
    | cons first above =>
        obtain ⟨rfl, rfl⟩ := List.cons.inj hlines
        exact .inr ⟨above, start, below, digits, index, rfl, hstart, hindex, hbelow⟩
  · rintro (⟨digits, index, hstart, hindex, hbelow⟩ | ⟨above, start, below, digits, index, rfl, h⟩)
    · exact ⟨[], line, lines, digits, index, rfl, hstart, hindex, hbelow⟩
    · exact ⟨line :: above, start, below, digits, index, rfl, h⟩

/-- What is collected from lines is the stanza that the draft becomes, and those that the lines
open. -/
theorem mem_collect_iff {d : Draft} {lines : List Text} {stanzas : List Stanza}
    (h : collect d (lines.map Line.ofText) = .ok stanzas) {s : Stanza} :
  s ∈ stanzas ↔ Completes d lines s ∨ Opens lines s
  := by
  induction lines generalizing d stanzas with
  | nil =>
      obtain rfl : d.complete?.toList = stanzas := Except.ok.inj h
      rw [completes_nil, Option.mem_toList]
      constructor
      · exact .inl
      · rintro (hcomplete | ⟨above, start, below, digits, index, hlines, -⟩)
        · exact hcomplete
        · simp at hlines
  | cons line lines ih =>
      rw [List.map_cons] at h
      rw [opens_cons]
      cases hline : indexLine? line with
      | none =>
          rw [collect_of_none hline] at h
          rw [ih h, completes_cons_of_none hline]
          simp
      | some digits =>
          rw [ofText_eq_index hline, collect] at h
          obtain ⟨index, hindex, h⟩ := bind_eq_ok_iff.mp h
          obtain ⟨rest, hrest, hstanzas⟩ := bind_eq_ok_iff.mp h
          obtain rfl : d.complete?.toList ++ rest = stanzas := Except.ok.inj hstanzas
          rw [List.mem_append, Option.mem_toList, ih hrest,
            completes_cons_of_some (by simp [hline])]
          apply or_congr_right
          apply or_congr_left
          constructor
          · intro hcompletes
            exact ⟨digits, index, rfl, hindex, hcompletes⟩
          · rintro ⟨digits', index', hdigits, hindex', hcompletes⟩
            obtain rfl := Option.some.inj hdigits
            obtain rfl := Except.ok.inj (hindex.symm.trans hindex')
            exact hcompletes

/-- Nothing comes before the first line with an index. -/
theorem not_completes_empty {lines : List Text} {s : Stanza} :
  ¬Completes Draft.empty lines s
  := by
  rintro ⟨body, below, -, -, -, hcomplete⟩
  rw [foldl_read] at hcomplete
  simp [Draft.complete?, Draft.empty] at hcomplete

/-- The last value that a function gives on a list is that of the last element where it has one. -/
theorem getLast?_filterMap_eq_some_iff {α β : Type} {f : α → Option β} {l : List α} {b : β} :
  (l.filterMap f).getLast? = some b ↔
    ∃ upper a lower, l = upper ++ a :: lower ∧ f a = some b ∧ ∀ x ∈ lower, f x = none
  := by
  rw [List.getLast?_filterMap, List.findSome?_eq_some_iff]
  constructor
  · rintro ⟨lower, a, upper, hl, ha, hlower⟩
    refine ⟨upper.reverse, a, lower.reverse, ?_, ha, by simpa using hlower⟩
    rw [← List.reverse_reverse l, hl]
    simp
  · rintro ⟨upper, a, lower, rfl, ha, hlower⟩
    exact ⟨lower.reverse, a, upper.reverse, by simp, ha, by simpa using hlower⟩

/-- A stanza as it stands among lines: it begins with a line that gives its index and goes on to
the next line with an index; in between the last header and the last state type are its own. -/
structure Occurrence (lines : List Text) (s : Stanza) where
  /-- The lines above the stanza. -/
  above : List Text
  /-- The line that gives the index. -/
  start : Text
  digits : Text
  /-- The lines of the stanza above the one that gives the header. -/
  upper : List Text
  /-- The line that gives the header. -/
  included : Text
  /-- The lines of the stanza below the one that gives the header. -/
  lower : List Text
  /-- The lines below the stanza. -/
  below : List Text
  lines_eq : lines = above ++ start :: (upper ++ included :: lower ++ below)
  start_eq : indexLine? start = some digits
  index_eq : Numeral.read digits = .ok s.index
  inside : ∀ line ∈ upper ++ included :: lower, indexLine? line = none
  outside : ∀ line ∈ below.head?, indexLine? line ≠ none
  header_eq : headerOf? included = some s.header.toList
  header_last : ∀ line ∈ lower, headerOf? line = none
  name_eq : ((upper ++ included :: lower).filterMap stateTypeOf?).getLast? = some s.name.toList

theorem complete?_eq_some_iff {index : Nat} {body : List Text} {s : Stanza} :
  (body.foldl Draft.read ⟨some index, none, none⟩).complete? = some s ↔
    index = s.index ∧ (body.filterMap stateTypeOf?).getLast? = some s.name.toList ∧
      (body.filterMap headerOf?).getLast? = some s.header.toList
  := by
  rw [foldl_read, Option.or_none, Option.or_none, Draft.complete?]
  cases (body.filterMap stateTypeOf?).getLast? with
  | none => simp
  | some name =>
      cases (body.filterMap headerOf?).getLast? with
      | none => simp
      | some path =>
          obtain ⟨name', index', path'⟩ := s
          simp [String.ext_iff, and_left_comm]

/-- Lines open a stanza exactly where it stands among them. -/
theorem opens_iff_occurrence {lines : List Text} {s : Stanza} :
  Opens lines s ↔ Nonempty (Occurrence lines s)
  := by
  constructor
  · rintro ⟨above, start, _, digits, index, rfl, hstart, hindex, body, below, rfl, hbody, hbelow,
      hcomplete⟩
    obtain ⟨rfl, hname, hheader⟩ := complete?_eq_some_iff.mp hcomplete
    obtain ⟨upper, included, lower, rfl, hincluded, hlower⟩ :=
      getLast?_filterMap_eq_some_iff.mp hheader
    exact ⟨above, start, digits, upper, included, lower, below, rfl, hstart, hindex, hbody, hbelow,
      hincluded, hlower, hname⟩
  · rintro ⟨o⟩
    have hheader : ((o.upper ++ o.included :: o.lower).filterMap headerOf?).getLast? =
        some s.header.toList :=
      getLast?_filterMap_eq_some_iff.mpr
        ⟨o.upper, o.included, o.lower, rfl, o.header_eq, o.header_last⟩
    exact ⟨o.above, o.start, _, o.digits, s.index, o.lines_eq, o.start_eq, o.index_eq,
      o.upper ++ o.included :: o.lower, o.below, rfl, o.inside, o.outside,
      complete?_eq_some_iff.mpr ⟨rfl, o.name_eq, hheader⟩⟩

/-! ### Lines that define an index -/

/-- Whether a line defines the index of a contract, by whatever stands behind the name. -/
def definesIndex (line : Text) : Bool :=
  match afterDirective? "#define" line with
  | some t =>
    match Text.dropSuffix? "_CONTRACT_INDEX".toList (t.takeWhile fun c => !isBlank c) with
    | some front => !front.isEmpty
    | none => false
  | none => false

theorem isBlank_of_isIndexNameChar {c : Char} (h : isIndexNameChar c) :
  isBlank c = false
  := by
  apply isBlank_of_isWord
  simp only [isIndexNameChar, Bool.or_eq_true, beq_iff_eq] at h
  rcases h with (h | h) | rfl
  · have halpha : c.isAlpha = true := by
      change (c.isUpper || c.isLower) = true
      rw [h, Bool.true_or]
    apply isWord_of_isIdentStart
    simp [isIdentStart, halpha]
  · apply isWord_of_isDigit h
  · decide

/-- The name of an index is the whole word in front of a blank. -/
theorem takeWhile_of_afterBlanks? {t value : Text}
    (h : Text.afterBlanks? (t.dropWhile isIndexNameChar) = some value) :
  (t.takeWhile fun c => !isBlank c) = t.takeWhile isIndexNameChar
  := by
  have hword : ∀ c ∈ t.takeWhile isIndexNameChar, (!isBlank c) = true := by
    intro c hc
    simp [isBlank_of_isIndexNameChar (List.mem_takeWhile_imp hc)]
  have hstop : ∀ c ∈ (t.dropWhile isIndexNameChar).head?, (!isBlank c) = false := by
    intro c hc
    obtain ⟨rest, hrest⟩ := List.head?_eq_some_iff.mp hc
    rw [hrest, Text.afterBlanks?, Option.ite_none_right_eq_some] at h
    simp [h.1]
  have htake := (Text.takeWhile_append_all hword hstop).1
  rwa [List.takeWhile_append_dropWhile] at htake

/-- A line on which an index can be read defines one. -/
theorem definesIndex_of_indexLine? {line digits : Text} (h : indexLine? line = some digits) :
  definesIndex line
  := by
  rw [indexLine?, Option.bind_eq_bind, Option.bind_eq_some_iff] at h
  obtain ⟨t, ht, h⟩ := h
  obtain ⟨front, hfront, h⟩ := Option.bind_eq_some_iff.mp h
  obtain ⟨value, hvalue, h⟩ := Option.bind_eq_some_iff.mp h
  have hempty : front.isEmpty = false := by
    by_contra hempty
    simp [show front.isEmpty = true by simpa using hempty] at h
  rw [definesIndex, ht]
  dsimp only
  rw [takeWhile_of_afterBlanks? hvalue, hfront]
  simp [hempty]

/-- Above the header of a stanza the closest line on which an index can be read is the first line
of the stanza. -/
theorem Occurrence.getLast?_indices {lines : List Text} {s : Stanza} (o : Occurrence lines s) :
  ((o.above ++ o.start :: o.upper).filterMap indexLine?).getLast? = some o.digits
  := by
  apply getLast?_filterMap_eq_some_iff.mpr
  refine ⟨o.above, o.start, o.upper, rfl, o.start_eq, ?_⟩
  intro line hline
  apply o.inside line (List.mem_append_left _ hline)

/-- Above the header of a stanza the closest line that defines an index is the first line of the
stanza, or one that gives no index. -/
theorem Occurrence.exists_closest {lines : List Text} {s : Stanza} (o : Occurrence lines s) :
  ∃ closest, ((o.above ++ o.start :: o.upper).filter definesIndex).getLast? = some closest ∧
    (closest = o.start ∨ indexLine? closest = none)
  := by
  have hstart := definesIndex_of_indexLine? o.start_eq
  rw [List.filter_append, List.filter_cons_of_pos hstart, List.getLast?_append,
    List.getLast?_cons, Option.some_or]
  refine ⟨_, rfl, ?_⟩
  cases hupper : (o.upper.filter definesIndex).getLast? with
  | none => exact .inl rfl
  | some line =>
      have hline := List.mem_of_mem_filter (List.mem_of_getLast? hupper)
      exact .inr (o.inside line (List.mem_append_left _ hline))

/-- The stanzas that are found in a list of contracts are the ones that stand in it.  The index of
each is the one on the closest line above its header on which an index can be read; this is the
closest line that defines an index at all, unless that line gives no index. -/
theorem index_of_occurrence {source : Text} {stanzas : List Stanza}
    (h : all source = .ok stanzas) :
  (∀ s, s ∈ stanzas ↔ Nonempty (Occurrence (Text.lines source) s)) ∧
  ∀ s, ∀ o : Occurrence (Text.lines source) s,
    let preceding := o.above ++ o.start :: o.upper
    (preceding.filterMap indexLine?).getLast? = some o.digits ∧
    ∃ closest, (preceding.filter definesIndex).getLast? = some closest ∧
      (closest = o.start ∨ indexLine? closest = none)
  := by
  constructor
  · intro s
    rw [mem_collect_iff h, ← opens_iff_occurrence]
    exact or_iff_right not_completes_empty
  · intro s o
    exact ⟨o.getLast?_indices, o.exists_closest⟩

/-- Two contracts, with a comment behind the index of the second one. -/
def commentedList : Text :=
  "#define A_CONTRACT_INDEX 1\n#define CONTRACT_STATE_TYPE A\n".toList ++
    "#include \"contracts/A.h\"\n".toList ++
    "#define B_CONTRACT_INDEX 2 // two\n#define CONTRACT_STATE_TYPE B\n".toList ++
    "#include \"contracts/B.h\"\n".toList

theorem all_commentedList :
  all commentedList = .ok [⟨"B", 1, "B.h"⟩]
  := by
  decide +kernel

theorem index_of_occurrence_commentedList :
  all commentedList = .ok [⟨"B", 1, "B.h"⟩] ∧
  (∀ s, s ∈ [(⟨"B", 1, "B.h"⟩ : Stanza)] ↔ Nonempty (Occurrence (Text.lines commentedList) s)) ∧
  ∀ s, ∀ o : Occurrence (Text.lines commentedList) s,
    let preceding := o.above ++ o.start :: o.upper
    (preceding.filterMap indexLine?).getLast? = some o.digits ∧
    ∃ closest, (preceding.filter definesIndex).getLast? = some closest ∧
      (closest = o.start ∨ indexLine? closest = none)
  := ⟨all_commentedList, index_of_occurrence all_commentedList⟩

/-- The second contract gets the index of the first one, although the closest line above its
header defines another index, and the first one is lost. -/
theorem index_commentedList :
  let lines := Text.lines commentedList
  all commentedList = .ok [⟨"B", 1, "B.h"⟩] ∧
  (lines.drop 5).filterMap headerOf? = ["B.h".toList] ∧
  ((lines.take 5).filter definesIndex).getLast? = some "#define B_CONTRACT_INDEX 2 // two".toList
  := by
  intro lines
  use all_commentedList
  decide +kernel

end ContractInterface.Stanza
