import ContractInterface.Proofs.Resolution.Outcome
import ContractInterface.Proofs.Stanza
import ContractInterface.Proofs.Text.Run
import Mathlib.Data.List.Infix

/-!
# What a list of contracts says

The lines with an index divide a list of contracts into stanzas: each of them opens one, which
extends to the next of them.  So there is at most one stanza for every line, and whether there is
one, and which, depends on that line and the ones below it (`opened?`).  The stanzas of the list
are those that its lines open, from the first to the last.  The same lines read one after
another into a draft give the same stanzas, because a draft holds what the lines since the last
index have said.
-/

namespace ContractInterface

namespace Stanza

/-! ### Kinds of lines -/

/-- A line with a state type includes no header: the two start with different directives. -/
theorem headerLine?_eq_none {line name : Text} (h : stateTypeLine? line = some name) :
  headerLine? line = none
  := by
  simp only [stateTypeLine?, afterDirective?, Option.bind_eq_bind, Option.bind_eq_some_iff] at h
  obtain ⟨_, ⟨t, hdefine, -⟩, -⟩ := h
  have hinclude : Text.dropPrefix? "#include".toList (Text.trimLeft line) = none := by
    rw [Text.eq_append_of_dropPrefix? hdefine]
    rfl
  rw [headerLine?, afterDirective?, hinclude]
  rfl

theorem stateTypeOf?_eq_stateTypeLine? {line : Text} (h : indexLine? line = none) :
  stateTypeOf? line = stateTypeLine? line
  := by
  rw [stateTypeOf?, Line.ofText, h]
  cases stateTypeLine? line with
  | some name => rfl
  | none =>
      cases headerLine? line with
      | some path => rfl
      | none => rfl

theorem headerOf?_eq_headerLine? {line : Text} (h : indexLine? line = none) :
  headerOf? line = headerLine? line
  := by
  rw [headerOf?, Line.ofText, h]
  cases hname : stateTypeLine? line with
  | some name => rw [headerLine?_eq_none hname]
  | none =>
      cases headerLine? line with
      | some path => rfl
      | none => rfl

/-! ### Stanzas by their lines -/

/-- The lines up to the next one with an index. -/
def untilIndex (lines : List Text) : List Text :=
  lines.takeWhile fun line => (indexLine? line).isNone

/-- The stanza that the first one of some lines opens: if there is an index on it, and up to the
next line with an index there are a state type and a header, then the last of these are its name
and its header. -/
def opened? : List Text → Option Stanza
  | [] => none
  | start :: below => do
    let digits ← indexLine? start
    let name ← ((untilIndex below).filterMap stateTypeLine?).getLast?
    let header ← ((untilIndex below).filterMap headerLine?).getLast?
    some ⟨String.ofList name, Numeral.value digits, String.ofList header⟩

/-- What a draft becomes at the next line with an index. -/
def Draft.completed? (d : Draft) (lines : List Text) : Option Stanza :=
  ((untilIndex lines).foldl Draft.read d).complete?

theorem completed?_cons_of_none {line : Text} (h : indexLine? line = none) (d : Draft)
    (lines : List Text) :
  d.completed? (line :: lines) = (d.read line).completed? lines
  := by
  rw [Draft.completed?, untilIndex, List.takeWhile_cons_of_pos (by simp [h])]
  rfl

theorem completed?_cons_of_some {line digits : Text} (h : indexLine? line = some digits)
    (d : Draft) (lines : List Text) :
  d.completed? (line :: lines) = d.complete?
  := by
  rw [Draft.completed?, untilIndex, List.takeWhile_cons_of_neg (by simp [h])]
  rfl

theorem opened?_cons_of_none {line : Text} (h : indexLine? line = none) (lines : List Text) :
  opened? (line :: lines) = none
  := by
  rw [opened?, h]
  rfl

/-- A draft that has nothing but an index becomes the stanza of that index. -/
theorem opened?_cons_of_some {line digits : Text} (h : indexLine? line = some digits)
    (lines : List Text) :
  opened? (line :: lines) = Draft.completed? ⟨some (Numeral.value digits), none, none⟩ lines
  := by
  have hindex : ∀ l ∈ untilIndex lines, indexLine? l = none := by
    intro l hl
    simpa using List.mem_takeWhile_imp hl
  have hnames : (untilIndex lines).filterMap stateTypeOf? =
      (untilIndex lines).filterMap stateTypeLine? :=
    List.filterMap_congr fun l hl => stateTypeOf?_eq_stateTypeLine? (hindex l hl)
  have hheaders : (untilIndex lines).filterMap headerOf? =
      (untilIndex lines).filterMap headerLine? :=
    List.filterMap_congr fun l hl => headerOf?_eq_headerLine? (hindex l hl)
  rw [Draft.completed?, foldl_read, hnames, hheaders, Option.or_none, Option.or_none, opened?, h]
  rfl

/-- What is collected from lines is what the draft becomes, and then what the lines open. -/
theorem collect_eq_opened {lines : List Text}
    (h : ∀ line ∈ lines, ∀ digits ∈ indexLine? line, digits.length ≤ Numeral.digitLimit)
    (d : Draft) :
  collect d (lines.map Line.ofText) =
    .ok ((d.completed? lines).toList ++ lines.tails.filterMap opened?)
  := by
  induction lines generalizing d with
  | nil => simp [collect, Draft.completed?, untilIndex, opened?]
  | cons line lines ih =>
      obtain ⟨hline, hlines⟩ := List.forall_mem_cons.mp h
      rw [List.map_cons, List.tails_cons, List.filterMap_cons]
      cases hindex : indexLine? line with
      | none =>
          rw [collect_of_none hindex, ih hlines, completed?_cons_of_none hindex,
            opened?_cons_of_none hindex]
      | some digits =>
          have hread : Numeral.read digits = .ok (Numeral.value digits) := by
            rw [Numeral.read, if_pos (hline digits hindex)]
          have hcollect := ih hlines ⟨some (Numeral.value digits), none, none⟩
          rw [ofText_eq_index hindex, collect, hread]
          simp only [bind, Except.bind, pure, Except.pure, hcollect]
          rw [completed?_cons_of_some hindex, opened?_cons_of_some hindex]
          cases Draft.completed? ⟨some (Numeral.value digits), none, none⟩ lines with
          | none => rfl
          | some s => rfl

/-- Nothing comes of the lines above the first one with an index. -/
theorem completed?_empty (lines : List Text) :
  Draft.empty.completed? lines = none
  := by
  rw [Draft.completed?, foldl_read, Draft.complete?, Draft.empty]
  simp

/-- A header has the index of the last stanza that includes a header with its base name. -/
theorem get?_indexTable (stanzas : List Stanza) (name : String) :
  (indexTable stanzas).get? name =
    ((stanzas.filter fun s => baseName s.header = name).getLast?).map Stanza.index
  := by
  rw [indexTable, Assignments.ofList, Assignments.get?_foldl_insert, List.filter_map,
    List.getLast?_map, Option.map_map, Assignments.get?, Option.or_none]
  rfl

/-- A list of contracts has one stanza for each of its lines that opens one, in their order, and
the index of a header is that of the last stanza with its base name. -/
theorem all_eq_opened {source : Text}
    (h : ∀ line ∈ Text.lines source, ∀ digits ∈ indexLine? line,
      digits.length ≤ Numeral.digitLimit) :
  let stanzas := (Text.lines source).tails.filterMap opened?
  all source = .ok stanzas ∧
  ∀ name, (indexTable stanzas).get? name =
    ((stanzas.filter fun s => baseName s.header = name).getLast?).map Stanza.index
  := by
  intro stanzas
  constructor
  · rw [all, collect_eq_opened h, completed?_empty]
    rfl
  · apply get?_indexTable

/-- A list in which a name and a header come before the first index, one stanza has two names and
two headers, one has no header, and the last one has the base name of an earlier one. -/
def unevenList : Text :=
  "#define CONTRACT_STATE_TYPE Z\n#include \"contracts/Z.h\"\n".toList ++
    "#define A_CONTRACT_INDEX 1\n#include \"contracts/old/A.h\"\n".toList ++
    "#define CONTRACT_STATE_TYPE B\n#include \"contracts/A.h\"\n".toList ++
    "#define CONTRACT_STATE_TYPE A\n#define C_CONTRACT_INDEX 2\n".toList ++
    "#define CONTRACT_STATE_TYPE C\n#define D_CONTRACT_INDEX 3\n".toList ++
    "#include \"contracts/new/A.h\"\n#define CONTRACT_STATE_TYPE D\n".toList

theorem all_eq_opened_unevenList :
  all unevenList = .ok [⟨"A", 1, "A.h"⟩, ⟨"D", 3, "new/A.h"⟩] ∧
  (indexTable [⟨"A", 1, "A.h"⟩, ⟨"D", 3, "new/A.h"⟩]).get? "A.h" = some 3
  := by
  have hlimit : ∀ line ∈ Text.lines unevenList, ∀ digits ∈ indexLine? line,
      digits.length ≤ Numeral.digitLimit := by
    decide +kernel
  have hstanzas : (Text.lines unevenList).tails.filterMap opened? =
      [⟨"A", 1, "A.h"⟩, ⟨"D", 3, "new/A.h"⟩] := by
    decide +kernel
  obtain ⟨hall, htable⟩ := all_eq_opened hlimit
  rw [hstanzas] at hall htable
  exact ⟨hall, (htable "A.h").trans (by decide +kernel)⟩

end Stanza

end ContractInterface
