import ContractInterface.Proofs.Header.ArrayTemplate
import ContractInterface.Proofs.Header.Extent
import ContractInterface.Proofs.Text.Pattern
import Mathlib.Data.String.Basic

/-!
# Conventions for type names

The catalog knows type names by eight conventions.  Each of them is a pattern, and what its groups
hold are the parts of a name; so which part of a name stands for what is decided by the order in
which the ways to match the pattern are tried.  The recognizers of the catalog find the same parts
without trying (`map_recognizers`): the length of an array stands behind the last comma, and the
arguments of templates are found by trimming.

The words with which the names of two conventions start exclude each other.  So no name follows
two conventions, and they can be tried in any order (`catalog_unambiguous`).
-/

namespace ContractInterface.Header

open Text Pattern

/-- A convention for type names. -/
structure Convention where
  name : String
  pattern : Pattern

/-- What is known of a text that follows a convention: which one it is, and the parts of the
text. -/
def Convention.match? (convention : Convention) (t : Text) : Option (String × Table Text) :=
  (convention.pattern.fullMatch? t).map (convention.name, ·)

/-- The convention that a type name of the catalog follows, and the parts of the name. -/
def CatalogType.parts : CatalogType → String × Table Text
  | .fixedArray item length => ("fixed-array", [("item", item), ("length", length)])
  | .bitArray bits => ("bit-array", [("bits", bits)])
  | .integerArray signed width length =>
    ("integer-array", [("sign", (signWord signed).toList), ("width", (toString width).toList),
      ("length", length)])
  | .idArray length => ("id-array", [("length", length)])
  | .bitCount length => ("bit-count", [("length", length)])
  | .primitive _ => ("primitive", [])
  | .aggregate _ => ("known-aggregate", [])
  | .proposalData => ("proposal-data-v1", [])

namespace Convention

/-- A name, and in angle brackets what a pattern takes. -/
def template (name : String) (inner : Pattern) : Pattern :=
  seq (word name) (seq blanks (seq (word "<") (seq inner (word ">"))))

/-- A length in decimal digits. -/
def digits : Pattern :=
  group "length" (run true 1 isDecimal)

/-- Whether a character can stand in the item type of an array template. -/
def isItemChar (c : Char) : Bool :=
  c != '\n'

/-- Whether a character can stand in the length of an array template. -/
def isLengthChar (c : Char) : Bool :=
  c != ',' && !CatalogType.isAngle c

def fixedArray : Convention :=
  ⟨"fixed-array", template "Array"
    (seq (argument "item" isItemChar) (seq (word ",") (argument "length" isLengthChar)))⟩

def bitArray : Convention :=
  ⟨"bit-array", template "BitArray" (argument "bits" fun c => !CatalogType.isAngle c)⟩

def integerArray : Convention :=
  ⟨"integer-array", seq (group "sign" (oneOf ["sint".toList, "uint".toList]))
    (seq (group "width" (oneOf ["8".toList, "16".toList, "32".toList, "64".toList]))
      (seq (word "_") digits))⟩

def idArray : Convention :=
  ⟨"id-array", seq (word "id_") digits⟩

def bitCount : Convention :=
  ⟨"bit-count", seq (word "bit_") digits⟩

def primitive : Convention :=
  ⟨"primitive", oneOf (CatalogType.primitives.map fun entry => entry.1.toList)⟩

def aggregate : Convention :=
  ⟨"known-aggregate", oneOf (CatalogType.aggregates.map fun entry => entry.1.toList)⟩

def proposalData : Convention :=
  ⟨"proposal-data-v1", template "ProposalDataV1"
    (seq blanks (seq (oneOf ["true".toList, "false".toList]) blanks))⟩

/-- The conventions of the catalog, in the order in which they are tried. -/
def catalog : List Convention :=
  [fixedArray, bitArray, integerArray, idArray, bitCount, primitive, aggregate, proposalData]

/-! ### Templates -/

/-- What has to reach a closing bracket at the end takes all but this bracket. -/
theorem first?_bracket (inner : Pattern) (t : Text) :
  inner.first? t (only ['>'] (some [])) =
    (dropSuffix? ['>'] t).bind fun s => inner.first? (s ++ ['>']) (only ['>'] (some []))
  := by
  cases hsuffix : dropSuffix? ['>'] t with
  | some s => rw [eq_append_of_dropSuffix? hsuffix, Option.bind_some]
  | none =>
      rw [Option.bind_none, ← first?_none inner t]
      apply first?_congr
      rintro rest ⟨front, rfl⟩
      rw [only, if_neg]
      rintro rfl
      rw [dropSuffix?_append] at hsuffix
      contradiction

theorem fullMatch?_template (name : String) (inner : Pattern) (t : Text) :
  (template name inner).fullMatch? t =
    (CatalogType.templateArgument? name t).bind fun s =>
      inner.first? (s ++ ['>']) (only ['>'] (some []))
  := by
  have hclose : (fun u => (word ">").first? u (only [] (some []))) = only ['>'] (some []) := by
    funext u
    rw [first?_word, bind_only]
    rfl
  have hopen : "<".toList = ['<'] := rfl
  rw [fullMatch?_eq_first?, template, first?_seq, first?_word, CatalogType.templateArgument?]
  simp only [first?_seq, hclose, first?_word "<", hopen, first?_blanks_word (c := '<') rfl,
    Option.bind_eq_bind, Option.bind_assoc]
  congr 1
  funext t₁
  congr 1
  funext t₂
  apply first?_bracket

/-- The arguments of templates are found by trimming. -/
theorem argument?_eq_itemArgument? (t : Text) :
  argument? isItemChar t = CatalogType.itemArgument? t
  := by
  have hline : ¬ (trim t).all isItemChar ↔ (trim t).contains '\n' := by simp [isItemChar]
  simp only [argument?, CatalogType.itemArgument?, List.isEmpty_iff, ← hline, ite_not]
  rfl

/-- A class that has all blanks. -/
theorem argument?_eq_trimArgument? {p : Char → Bool} (hp : ∀ c, isBlank c → p c) (t : Text) :
  argument? p t = if t.all p then CatalogType.trimArgument? t else none
  := by
  have hall : (trim t).all p ↔ t.all p := by
    rw [List.all_eq_true, List.all_eq_true]
    constructor
    · intro h c hc
      by_cases hblank : isBlank c
      · exact hp c hblank
      · exact h c ((mem_trim (by simpa using hblank) t).mpr hc)
    · exact fun h c hc => h c ((infix_trim t).subset hc)
  rw [argument?, CatalogType.trimArgument?]
  by_cases hnil : trim t = []
  · have htrue : t.all p := by rw [← hall, hnil]; rfl
    have hfind : t.reverse.find? p = t.getLast? := by
      rw [List.getLast?_eq_head?_reverse]
      rw [← List.all_reverse] at htrue
      cases hreverse : t.reverse with
      | nil => rfl
      | cons c u =>
          rw [hreverse, List.all_cons, Bool.and_eq_true] at htrue
          rw [List.find?_cons_of_pos htrue.1, List.head?_cons]
    simp [hnil, htrue, hfind]
  · simp [hnil, hall]

theorem first?_argument_bracket (name : String) (p : Char → Bool) (t : Text) :
  (argument name p).first? (t ++ ['>']) (only ['>'] (some [])) =
    (argument? p t).map fun inner => [(name, inner)]
  := by
  rw [first?_argument rfl]
  cases argument? p t with
  | none => rfl
  | some inner => rfl

theorem isAngle_of_isBlank {c : Char} (h : isBlank c) :
  CatalogType.isAngle c = false
  := by
  by_contra hangle
  simp only [CatalogType.isAngle, Bool.not_eq_false, Bool.or_eq_true, beq_iff_eq] at hangle
  rcases hangle with rfl | rfl
  · contradiction
  · contradiction

/-- There is no angle bracket in an argument that is not a type. -/
theorem argument?_plain (t : Text) :
  argument? (fun c => !CatalogType.isAngle c) t =
    if t.any CatalogType.isAngle then none else CatalogType.trimArgument? t
  := by
  have hblank : ∀ c, isBlank c → !CatalogType.isAngle c := by
    intro c hc
    rw [isAngle_of_isBlank hc]
    rfl
  rw [argument?_eq_trimArgument? hblank, ← List.not_any_eq_all_not]
  cases t.any CatalogType.isAngle
  · rfl
  · rfl

theorem bitArray_match? (t : Text) :
  bitArray.match? t = (CatalogType.bitArray? t).map CatalogType.parts
  := by
  rw [match?, bitArray, fullMatch?_template, CatalogType.bitArray?]
  cases CatalogType.templateArgument? "BitArray" t with
  | none => rfl
  | some s =>
      simp only [Option.bind_some, first?_argument_bracket, argument?_plain, Option.bind_eq_bind]
      split
      · rfl
      · cases CatalogType.trimArgument? s
        · rfl
        · rfl

/-- There is neither a comma nor an angle bracket in a length. -/
theorem argument?_length (t : Text) :
  argument? isLengthChar t =
    if ',' ∈ t ∨ t.any CatalogType.isAngle then none else CatalogType.trimArgument? t
  := by
  have hblank : ∀ c, isBlank c → isLengthChar c := by
    intro c hc
    have hcomma : c ≠ ',' := by
      rintro rfl
      contradiction
    simp [isLengthChar, isAngle_of_isBlank hc, hcomma]
  have hall : t.all isLengthChar ↔ ¬ (',' ∈ t ∨ t.any CatalogType.isAngle) := by
    rw [List.all_eq_true, not_or, List.any_eq_true]
    constructor
    · intro h
      constructor
      · intro hcomma
        have hchar := h ',' hcomma
        simp [isLengthChar] at hchar
      · rintro ⟨c, hc, hangle⟩
        have hchar := h c hc
        simp [isLengthChar, hangle] at hchar
    · rintro ⟨hcomma, hangle⟩ c hc
      rw [isLengthChar, Bool.and_eq_true, bne_iff_ne, Bool.not_eq_true', ← Bool.not_eq_true]
      constructor
      · rintro rfl
        exact hcomma hc
      · exact fun hc' => hangle ⟨c, hc, hc'⟩
  rw [argument?_eq_trimArgument? hblank]
  simp only [hall, ite_not]

/-- A text without commas is not cut, and another one at its last comma. -/
theorem cutAtLast?_comma (t : Text) :
  (',' ∉ t ∧ cutAtLast? (· == ',') t = none) ∨
    ∃ front back, t = front ++ ',' :: back ∧ ',' ∉ back ∧
      cutAtLast? (· == ',') t = some (front, ',', back)
  := by
  have hfalse {u : Text} (hu : ',' ∉ u) : ∀ c ∈ u, (c == ',') = false := by
    intro c hc
    rw [beq_eq_false_iff_ne]
    rintro rfl
    exact hu hc
  by_cases h : ',' ∈ t
  · right
    obtain ⟨back, front, ht, hback⟩ := List.eq_append_cons_of_mem (List.mem_reverse.mpr h)
    have ht : t = front.reverse ++ ',' :: back.reverse := by simpa using congrArg List.reverse ht
    have hback : ',' ∉ back.reverse := by simpa using hback
    refine ⟨_, _, ht, hback, ?_⟩
    rw [ht]
    exact cutAtLast?_append rfl (hfalse hback) _
  · exact .inl ⟨h, cutAtLast?_eq_none (hfalse h)⟩

/-- Reading on at a comma, there has to be a length behind it. -/
def lengthAt (t : Text) : Option (Table Text) :=
  (dropPrefix? [','] t).bind fun u =>
    (argument "length" isLengthChar).first? u (only ['>'] (some []))

theorem lengthAt_comma (t : Text) :
  lengthAt (',' :: (t ++ ['>'])) = (argument? isLengthChar t).map fun length => [("length", length)]
  := by
  change (argument "length" isLengthChar).first? (t ++ ['>']) _ = _
  apply first?_argument_bracket

theorem lengthAt_eq_none {t : Text} (h : ∀ length, ',' ∉ length → t ≠ ',' :: (length ++ ['>'])) :
  lengthAt t = none
  := by
  rw [lengthAt, Option.bind_eq_none_iff]
  intro u hu
  rw [first?_bracket, Option.bind_eq_none_iff]
  intro length hlength
  rw [first?_argument_bracket, Option.map_eq_none_iff, argument?_length, if_pos]
  left
  by_contra hcomma
  apply h length hcomma
  rw [eq_append_of_dropPrefix? hu, eq_append_of_dropSuffix? hlength]
  rfl

/-- There can be a length only behind the last comma. -/
theorem lengthAt_of_suffix {front back t : Text} (hback : ',' ∉ back)
    (ht : t <:+ front ++ ',' :: (back ++ ['>'])) :
  lengthAt t = only (',' :: (back ++ ['>']))
    ((argument? isLengthChar back).map fun length => [("length", length)]) t
  := by
  rw [only]
  split
  · rename_i h
    rw [h, lengthAt_comma]
  · rename_i h
    apply lengthAt_eq_none
    rintro length hlength rfl
    apply h
    have hlast {u v : Text} (hu : ',' ∉ u)
        (hle : ',' :: (v ++ ['>']) <:+ ',' :: (u ++ ['>'])) :
        ',' :: (v ++ ['>']) = ',' :: (u ++ ['>']) := by
      apply (List.suffix_cons_iff.mp hle).resolve_right
      intro hinner
      have hmem := hinner.subset List.mem_cons_self
      simp [hu] at hmem
    rcases List.suffix_or_suffix_of_suffix ht (List.suffix_append _ _) with hle | hle
    · exact hlast hback hle
    · exact (hlast hlength hle).symm

/-- The length stands behind the last comma. -/
theorem first?_item_length (t : Text) :
  (seq (argument "item" isItemChar) (seq (word ",") (argument "length" isLengthChar))).first?
      (t ++ ['>']) (only ['>'] (some [])) =
    (cutAtLast? (· == ',') t).bind fun (item, _, length) =>
      (CatalogType.itemArgument? item).bind fun item =>
        (argument? isLengthChar length).map fun length => [("item", item), ("length", length)]
  := by
  have hlength : (fun u => (seq (word ",") (argument "length" isLengthChar)).first? u
      (only ['>'] (some []))) = lengthAt := by
    funext u
    rw [first?_seq, first?_word]
    rfl
  rw [first?_seq, hlength]
  rcases cutAtLast?_comma t with ⟨h, hcut⟩ | ⟨item, length, rfl, hback, hcut⟩
  · rw [hcut, Option.bind_none, ← first?_none (argument "item" isItemChar) (t ++ ['>'])]
    apply first?_congr
    rintro rest hrest
    apply lengthAt_eq_none
    rintro length - rfl
    have hmem := hrest.subset List.mem_cons_self
    simp [h] at hmem
  · rw [hcut, List.append_assoc, List.cons_append,
      first?_congr fun rest hrest => lengthAt_of_suffix hback hrest, first?_argument rfl,
      argument?_eq_itemArgument?, Option.bind_some]
    simp only [Option.map_map, Function.comp_def]

theorem fixedArray_match? (t : Text) :
  fixedArray.match? t = (CatalogType.fixedArray? t).map CatalogType.parts
  := by
  rw [match?, fixedArray, fullMatch?_template, CatalogType.fixedArray?]
  cases CatalogType.templateArgument? "Array" t with
  | none => rfl
  | some s =>
      simp only [Option.bind_some, Option.bind_eq_bind]
      rw [first?_item_length]
      rcases cutAtLast?_comma s with ⟨-, hcut⟩ | ⟨item, length, -, hback, hcut⟩
      · rw [hcut]
        rfl
      · simp only [hcut, Option.bind_some, argument?_length, hback, false_or]
        split
        · cases CatalogType.itemArgument? item
          · rfl
          · rfl
        · cases CatalogType.itemArgument? item
          · rfl
          · cases CatalogType.trimArgument? length
            · rfl
            · rfl

/-! ### Lengths in names -/

theorem fullMatch?_digits (front : String) (t : Text) :
  (seq (word front) digits).fullMatch? t =
    (CatalogType.digitsAfter? front t).map fun length => [("length", length)]
  := by
  rw [fullMatch?_eq_first?, first?_seq, first?_word, CatalogType.digitsAfter?]
  cases dropPrefix? front.toList t with
  | none => rfl
  | some rest =>
      simp only [Option.bind_some, Option.bind_eq_bind]
      rw [← fullMatch?_eq_first?, digits, fullMatch?_group_run]
      have hlength : 1 ≤ rest.length ∧ rest.all isDecimal ↔
          ¬ (rest.isEmpty || !rest.all isDecimal) := by
        cases rest with
        | nil => simp
        | cons c rest => simp
      simp only [hlength, ite_not, apply_ite (Option.map _), Option.map_none, Option.map_some]

theorem idArray_match? (t : Text) :
  idArray.match? t = (CatalogType.idArray? t).map CatalogType.parts
  := by
  rw [match?, idArray, fullMatch?_digits, CatalogType.idArray?, Option.map_map, Option.map_map]
  rfl

theorem bitCount_match? (t : Text) :
  bitCount.match? t = (CatalogType.bitCount? t).map CatalogType.parts
  := by
  rw [match?, bitCount, fullMatch?_digits, CatalogType.bitCount?, Option.map_map, Option.map_map]
  rfl

/-- Digits behind the word for a signedness, a width and an underscore. -/
theorem digitsAfter?_sign_width (sign width : String) (t : Text) :
  CatalogType.digitsAfter? (sign ++ width ++ "_") t =
    (dropPrefix? sign.toList t).bind fun u =>
      (dropPrefix? width.toList u).bind fun v => CatalogType.digitsAfter? "_" v
  := by
  rw [CatalogType.digitsAfter?, String.toList_append, String.toList_append, dropPrefix?_append_bind,
    dropPrefix?_append_bind]
  simp only [Option.bind_eq_bind, Option.bind_assoc]
  rfl

theorem integerArray_match? (t : Text) :
  integerArray.match? t = (CatalogType.integerArray? t).map CatalogType.parts
  := by
  have htypes : CatalogType.integerTypes =
      [true, false].flatMap fun signed => [8, 16, 32, 64].map (signed, ·) := rfl
  have hsigns : ["sint".toList, "uint".toList] =
      [true, false].map fun signed => (CatalogType.signWord signed).toList := rfl
  have hwidths : ["8".toList, "16".toList, "32".toList, "64".toList] =
      [8, 16, 32, 64].map fun width => (toString width).toList := by decide
  have hdigits (u : Text) : (seq (word "_") digits).first? u (only [] (some [])) =
      (CatalogType.digitsAfter? "_" u).map fun length => [("length", length)] := by
    rw [← fullMatch?_eq_first?, fullMatch?_digits]
  rw [match?, integerArray, hsigns, hwidths, CatalogType.integerArray?, htypes, findSome?_flatMap,
    fullMatch?_eq_first?, first?_seq, first?_group_oneOf, List.findSome?_map, List.map_findSome?,
    List.map_findSome?]
  apply congrArg (List.findSome? · _)
  funext signed
  simp only [Function.comp_apply, List.findSome?_map, digitsAfter?_sign_width]
  cases hsign : dropPrefix? (CatalogType.signWord signed).toList t with
  | none => simp [hsign]
  | some u =>
      rw [Option.bind_some, first?_seq, first?_group_oneOf, List.findSome?_map]
      simp only [List.map_findSome?]
      apply congrArg (List.findSome? · _)
      funext width
      simp only [Function.comp_apply, hsign, Option.bind_some, hdigits]
      cases dropPrefix? (toString width).toList u with
      | none => rfl
      | some v =>
          simp only [Option.bind_some, Option.map_map]
          rfl

/-! ### Fixed names -/

theorem fullMatch?_names (table : List (String × TypeDesc)) (t : Text) :
  (oneOf (table.map fun entry => entry.1.toList)).fullMatch? t =
    (table.lookup (String.ofList t)).map fun _ => []
  := by
  have hmem : (table.lookup (String.ofList t)).isSome ↔
      t ∈ table.map fun entry => entry.1.toList := by
    rw [List.lookup_isSome_iff, List.mem_map]
    apply exists_congr
    intro entry
    rw [beq_iff_eq, String.ofList_eq, eq_comm]
  rw [fullMatch?_oneOf]
  simp only [← hmem]
  cases table.lookup (String.ofList t)
  · rfl
  · rfl

theorem primitive_match? (t : Text) :
  primitive.match? t = (CatalogType.primitive? t).map CatalogType.parts
  := by
  rw [match?, primitive, fullMatch?_names, CatalogType.primitive?, Option.map_map, Option.map_map]
  rfl

theorem aggregate_match? (t : Text) :
  aggregate.match? t = (CatalogType.aggregate? t).map CatalogType.parts
  := by
  rw [match?, aggregate, fullMatch?_names, CatalogType.aggregate?, Option.map_map, Option.map_map]
  rfl

theorem proposalData_match? (t : Text) :
  proposalData.match? t = (CatalogType.proposalData? t).map CatalogType.parts
  := by
  rw [match?, proposalData, fullMatch?_template, CatalogType.proposalData?]
  cases CatalogType.templateArgument? "ProposalDataV1" t with
  | none => rfl
  | some s =>
      rw [Option.bind_some, first?_words rfl (by decide)]
      simp only [Option.bind_eq_bind, Option.bind_some, Bool.or_eq_true, decide_eq_true_eq,
        String.ofList_eq, apply_ite (Option.map _), List.mem_cons, List.not_mem_nil, or_false]
      rfl

/-! ### The catalog -/

/-- The recognizers of the catalog find what the patterns match. -/
theorem map_recognizers (t : Text) :
  (CatalogType.recognizers.map fun recognize => (recognize t).map CatalogType.parts) =
    catalog.map (·.match? t)
  := by
  simp only [CatalogType.recognizers, catalog, List.map_cons, List.map_nil, fixedArray_match?,
    bitArray_match?, integerArray_match?, idArray_match?, bitCount_match?, primitive_match?,
    aggregate_match?, proposalData_match?]

theorem pairwise_apart :
  catalog.Pairwise fun c c' => c.pattern.Apart c'.pattern
  := by
  decide +kernel

/-- No text follows two conventions. -/
theorem pairwise_match? (t : Text) :
  catalog.Pairwise fun c c' => c.match? t = none ∨ c'.match? t = none
  := by
  apply pairwise_apart.imp
  intro c c' hapart
  rw [match?, match?, Option.map_eq_none_iff, Option.map_eq_none_iff]
  by_cases h : (c.pattern.fullMatch? t).isSome
  · exact .inr (hapart.fullMatch?_eq_none h)
  · exact .inl (Option.not_isSome_iff_eq_none.mp h)

theorem pairwise_recognizers (t : Text) :
  CatalogType.recognizers.Pairwise fun recognize recognize' =>
    recognize t = none ∨ recognize' t = none
  := by
  have h : (catalog.map (·.match? t)).Pairwise fun o o' => o = none ∨ o' = none :=
    List.pairwise_map.mpr (pairwise_match? t)
  rw [← map_recognizers, List.pairwise_map] at h
  simpa only [Option.map_eq_none_iff] using h

/-- If at most one entry of a list gives a result, then the first result does not depend on the
order of the list. -/
theorem findSome?_perm {α β : Type} {f : α → Option β} {l l' : List α}
    (hl : l.Pairwise fun a b => f a = none ∨ f b = none) (h : l'.Perm l) :
  l'.findSome? f = l.findSome? f
  := by
  induction h with
  | nil => rfl
  | cons a h ih => rw [List.findSome?_cons, List.findSome?_cons, ih (List.pairwise_cons.mp hl).2]
  | swap a b l =>
      have hab := (List.pairwise_cons.mp hl).1 b List.mem_cons_self
      simp only [List.findSome?_cons]
      rcases hab with ha | hb
      · rw [ha]
      · rw [hb]
  | trans h h' ih ih' => rw [ih ((h'.pairwise_iff Or.symm).mpr hl), ih' hl]

/-- The first convention that a text follows is found by the catalog. -/
theorem findSome?_match? (t : Text) :
  catalog.findSome? (·.match? t) = (CatalogType.ofName? t).map CatalogType.parts
  := by
  have h := congrArg (List.findSome? id) (map_recognizers t)
  rw [List.findSome?_map, List.findSome?_map] at h
  rw [CatalogType.ofName?, List.map_findSome?]
  exact h.symm

/-- An argument is trimmed if there is more than blanks in it. -/
theorem eq_trim_of_argument? {p : Char → Bool} {t inner : Text} (h : argument? p t = some inner)
    (hsolid : ∃ c ∈ t, isBlank c = false) :
  inner = trim t
  := by
  obtain ⟨c, hc, hblank⟩ := hsolid
  have hne : trim t ≠ [] := List.ne_nil_of_mem ((mem_trim hblank t).mpr hc)
  rw [argument?, if_neg hne, Option.ite_none_right_eq_some] at h
  exact (Option.some.inj h.2).symm

/-- The first angle bracket of a template stands behind its name and blanks. -/
theorem exists_of_template {name : String} {t s : Text}
    (h : CatalogType.templateArgument? name t = some s) :
  ∃ blanks, (∀ c ∈ blanks, isBlank c) ∧ t = name.toList ++ blanks ++ '<' :: (s ++ ['>'])
  := by
  simp only [CatalogType.templateArgument?, Option.bind_eq_bind, Option.bind_eq_some_iff] at h
  obtain ⟨t₁, h₁, t₂, h₂, h₃⟩ := h
  refine ⟨t₁.takeWhile isBlank, fun _ => List.mem_takeWhile_imp, ?_⟩
  have hrest : t₁.dropWhile isBlank = '<' :: (s ++ ['>']) := by
    rw [← trimLeft, eq_append_of_dropPrefix? h₂, eq_append_of_dropSuffix? h₃]
    rfl
  rw [List.append_assoc, ← hrest, List.takeWhile_append_dropWhile, eq_append_of_dropPrefix? h₁]

/-- The arguments of an array template stand before and behind its last comma. -/
theorem exists_of_fixedArray {t : Text} {groups : Table Text}
    (h : fixedArray.pattern.fullMatch? t = some groups) :
  ∃ front x y item length,
    t = front ++ '<' :: (x ++ ',' :: (y ++ ['>'])) ∧ '<' ∉ front ∧ ',' ∉ y ∧
    groups = [("item", item), ("length", length)] ∧
    argument? isItemChar x = some item ∧ argument? isLengthChar y = some length
  := by
  rw [fixedArray, fullMatch?_template, Option.bind_eq_some_iff] at h
  obtain ⟨s, hs, h⟩ := h
  obtain ⟨blanks, hblanks, rfl⟩ := exists_of_template hs
  rw [first?_item_length] at h
  rcases cutAtLast?_comma s with ⟨-, hcut⟩ | ⟨x, y, rfl, hy, hcut⟩
  · simp [hcut] at h
  · simp only [hcut, Option.bind_some, Option.bind_eq_some_iff, Option.map_eq_some_iff] at h
    obtain ⟨item, hitem, length, hlength, rfl⟩ := h
    refine ⟨"Array".toList ++ blanks, x, y, item, length, ?_, ?_, hy, rfl, ?_, hlength⟩
    · rw [List.append_assoc x, List.cons_append]
    · have hname : '<' ∉ "Array".toList := by decide
      rw [List.mem_append, not_or]
      exact ⟨hname, fun hmem => absurd (hblanks '<' hmem) (by decide)⟩
    · rw [argument?_eq_itemArgument?, hitem]

/-- No text follows two conventions, so that the catalog can be tried in any order and always finds
the same convention with the same parts of the text.  Of an array template, the item type is what
stands between the first angle bracket and the last comma, and the length what stands between this
comma and the angle bracket at the end, both without the blanks around them, if they are not
blank. -/
theorem catalog_unambiguous (t : Text) :
  (catalog.Pairwise fun c c' => c.match? t = none ∨ c'.match? t = none) ∧
  (∀ order : List Convention, order.Perm catalog →
    order.findSome? (·.match? t) = (CatalogType.ofName? t).map CatalogType.parts) ∧
  (∀ order : List (Text → Option CatalogType), order.Perm CatalogType.recognizers →
    order.findSome? (fun recognize => recognize t) = CatalogType.ofName? t) ∧
  ∀ groups, fixedArray.pattern.fullMatch? t = some groups →
    ∃ front x y item length,
      t = front ++ '<' :: (x ++ ',' :: (y ++ ['>'])) ∧ '<' ∉ front ∧ ',' ∉ y ∧
      groups = [("item", item), ("length", length)] ∧
      ((∃ c ∈ x, isBlank c = false) → item = trim x) ∧
      ((∃ c ∈ y, isBlank c = false) → length = trim y)
  := by
  refine ⟨pairwise_match? t, ?_, ?_, ?_⟩
  · intro order horder
    rw [findSome?_perm (pairwise_match? t) horder, findSome?_match?]
  · intro order horder
    exact findSome?_perm (pairwise_recognizers t) horder
  · intro groups hgroups
    obtain ⟨front, x, y, item, length, ht, hfront, hy, hparts, hitem, hlength⟩ :=
      exists_of_fixedArray hgroups
    exact ⟨front, x, y, item, length, ht, hfront, hy, hparts, eq_trim_of_argument? hitem,
      eq_trim_of_argument? hlength⟩

/-- An array of arrays, with the catalog in reverse order. -/
theorem catalog_unambiguous_nested :
  let t := "Array <\tArray<id, 2> , 2 * N >".toList
  (catalog.reverse.Perm catalog ∧ CatalogType.recognizers.reverse.Perm CatalogType.recognizers ∧
    fixedArray.pattern.fullMatch? t =
      some [("item", "Array<id, 2>".toList), ("length", "2 * N".toList)]) ∧
  (catalog.Pairwise fun c c' => c.match? t = none ∨ c'.match? t = none) ∧
  catalog.reverse.findSome? (·.match? t) = (CatalogType.ofName? t).map CatalogType.parts ∧
  CatalogType.recognizers.reverse.findSome? (fun recognize => recognize t) =
    CatalogType.ofName? t ∧
  ∃ front x y item length,
    t = front ++ '<' :: (x ++ ',' :: (y ++ ['>'])) ∧ '<' ∉ front ∧ ',' ∉ y ∧
    [("item", "Array<id, 2>".toList), ("length", "2 * N".toList)] =
      [("item", item), ("length", length)] ∧
    ((∃ c ∈ x, isBlank c = false) → item = trim x) ∧
    ((∃ c ∈ y, isBlank c = false) → length = trim y)
  := by
  intro t
  have hmatch : fixedArray.pattern.fullMatch? t =
      some [("item", "Array<id, 2>".toList), ("length", "2 * N".toList)] := by decide +kernel
  have horder := List.reverse_perm catalog
  have horder' := List.reverse_perm CatalogType.recognizers
  obtain ⟨hpairwise, hcatalog, hrecognizers, harray⟩ := catalog_unambiguous t
  exact ⟨⟨horder, horder', hmatch⟩, hpairwise, hcatalog _ horder, hrecognizers _ horder',
    harray _ hmatch⟩

end Convention

end ContractInterface.Header
