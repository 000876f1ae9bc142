import ContractInterface.Header.StructBody
import ContractInterface.Proofs.Header.Declaration
import ContractInterface.Proofs.Text.Run

/-!
# Written structs

A struct is written as the word `struct`, its name, and its members between braces.  In a text
that consists of such structs with distinct names, the body of each of them is found by its name:
the word `struct` stands only at the beginning of each struct, and no name is taken for a longer
one.
-/

namespace ContractInterface.Header

/-- The word that starts a struct. -/
def structWord : Text := "struct".toList

/-- The definition of a struct. -/
structure StructDef where
  name : Text
  members : List Member
  deriving DecidableEq, Repr

namespace StructDef

/-- The text between the braces. -/
def body (d : StructDef) : Text :=
  d.members.flatMap (fun m => ' ' :: (m.render ++ [';'])) ++ [' ']

/-- The text after the word `struct`. -/
def afterKeyword (d : StructDef) : Text :=
  d.name ++ ' ' :: '{' :: (d.body ++ ['}', ';'])

/-- The text of a definition. -/
def render (d : StructDef) : Text :=
  structWord ++ ' ' :: d.afterKeyword

end StructDef

/-! ### Passing over a struct -/

/-- A struct starts with the word `struct`. -/
theorem takeWhile_of_structMatcher {name : Text} {before : Option Char} {t : Text}
    (h : structMatcher name before t ≠ none) :
  before.any isWord = false ∧ t.takeWhile isWord = structWord
  := by
  obtain ⟨found, h⟩ := Option.ne_none_iff_exists'.mp h
  simp only [structMatcher, Option.ite_none_left_eq_some, Option.bind_eq_bind,
    Option.bind_eq_some_iff] at h
  obtain ⟨hbefore, rest, hprefix, body, hbody, -⟩ := h
  have hrest : rest.startsWord = false := by
    cases rest with
    | nil => rfl
    | cons c rest =>
        by_cases hc : isBlank c
        · exact isWord_of_isBlank hc
        · simp [afterSomeBlanks, hc] at hbody
  have hword : structWord.all isWord := by decide
  use by simpa using hbefore
  rw [Text.eq_append_of_dropPrefix? hprefix]
  exact (Text.takeWhile_append_boundary (List.all_eq_true.mp hword) hrest).1

/-- Where the word `struct` does not stand there is no struct. -/
theorem scanFirstFrom?_of_avoids {name : Text} {before : Option Char} {t : Text}
    (h : Text.Avoids structWord before t) (rest : Text) :
  Text.scanFirstFrom? (structMatcher name) before (t ++ ';' :: rest) =
    Text.scanFirstFrom? (structMatcher name) (some ';') rest
  := by
  have hsemicolon : ∀ c ∈ (';' :: rest).head?, isWord c = false := by
    simp only [List.head?_cons, Option.mem_some_iff, forall_eq']
    rfl
  have hnone : ∀ {before : Option Char} {t : Text}, Text.Avoids structWord before t →
      structMatcher name before (t ++ ';' :: rest) = none := by
    intro before t h
    by_contra hsome
    obtain ⟨hbefore, hword⟩ := takeWhile_of_structMatcher hsome
    rw [(Text.takeWhile_append_stop hsemicolon t).1] at hword
    apply h.takeWhile_ne hbefore hword
  induction t generalizing before with
  | nil =>
      have hend := hnone h
      rw [List.nil_append] at hend ⊢
      rw [Text.scanFirstFrom?, hend]
  | cons c t ih =>
      have hend := hnone h
      rw [List.cons_append] at hend ⊢
      rw [Text.scanFirstFrom?, hend]
      apply ih h.tail

/-! ### The beginning of a struct -/

theorem afterSomeBlanks_space {c : Char} (h : isBlank c = false) (t : Text) :
  afterSomeBlanks (' ' :: c :: t) = [c :: t]
  := by
  have hspace : isBlank ' ' = true := rfl
  rw [afterSomeBlanks, if_pos hspace, afterSomeBlanks, if_neg (by simp [h])]
  rfl

theorem any_getLast?_of_forall {word : Text} (hne : word ≠ []) (hword : ∀ c ∈ word, isWord c) :
  word.getLast?.any isWord = true
  := by
  rw [List.getLast?_eq_some_getLast hne]
  exact hword _ (List.getLast_mem hne)

theorem any_getLast?_of_isIdent {name : Text} (h : Text.isIdent name) :
  name.getLast?.any isWord = true
  := any_getLast?_of_forall (Text.ne_nil_of_isIdent h) (Text.isWord_of_isIdent h)

theorem afterName?_self {name : Text} (h : Text.isIdent name) (rest : Text) :
  afterName? name (name ++ ' ' :: '{' :: rest) = some rest
  := by
  rw [afterName?, Text.dropPrefix?_append, any_getLast?_of_isIdent h]
  rfl

/-- The name of a struct is not taken for another name. -/
theorem afterName?_of_ne {name other : Text} (h : Text.isIdent name)
    (hother : Text.isIdent other) (hne : name ≠ other) (rest : Text) :
  afterName? name (other ++ ' ' :: rest) = none
  := by
  rw [afterName?]
  rcases hprefix : Text.dropPrefix? name (other ++ ' ' :: rest) with _ | rest'
  · rfl
  · have hstarts : rest'.startsWord = true := by
      by_contra hstarts
      have heq := Text.eq_append_of_dropPrefix? hprefix
      obtain ⟨hname, -⟩ := Text.takeWhile_append_boundary (Text.isWord_of_isIdent h)
        (by simpa using hstarts)
      rw [← heq, (Text.takeWhile_append_boundary (Text.isWord_of_isIdent hother) rfl).1] at hname
      exact hne hname.symm
    simp [any_getLast?_of_isIdent h, hstarts]

/-! ### The body of a struct -/

theorem closingBrace?_append {body : Text} (h : ∀ c ∈ body, c ≠ '{' ∧ c ≠ '}') (rest : Text) :
  closingBrace? 1 (body ++ '}' :: rest) = some body.length
  := by
  induction body with
  | nil => rfl
  | cons c body ih =>
      obtain ⟨hopen, hclose⟩ := h c List.mem_cons_self
      rw [List.cons_append, closingBrace?, if_neg hopen, if_neg hclose,
        ih fun d hd => h d (List.mem_cons_of_mem c hd)]
      rfl

namespace StructDef

/-- Struct definitions that are found by their names: the names are identifiers, the bodies have
no braces, and the word `struct` stands nowhere in them. -/
structure Findable (d : StructDef) : Prop where
  name : Text.isIdent d.name
  body : ∀ c ∈ d.body, c ≠ '{' ∧ c ≠ '}'
  word : structWord ∉ Text.runs (d.name ++ ' ' :: d.body)

variable {d : StructDef} (h : d.Findable)

include h

/-- At the beginning of a struct the names are compared. -/
theorem Findable.structMatcher_render (name : Text) {before : Option Char}
    (hbefore : before.any isWord = false) (rest : Text) :
  structMatcher name before (d.render ++ rest) =
    (afterName? name (d.afterKeyword ++ rest)).map (((), ·))
  := by
  have hblanks : afterSomeBlanks (' ' :: (d.afterKeyword ++ rest)) = [d.afterKeyword ++ rest] := by
    obtain ⟨c, t, hname⟩ := List.exists_cons_of_ne_nil (Text.ne_nil_of_isIdent h.name)
    rw [afterKeyword, hname]
    apply afterSomeBlanks_space
    apply Text.solid_of_isIdent h.name c
    rw [hname]
    apply List.mem_cons_self
  have hprefix : Text.dropPrefix? "struct".toList (d.render ++ rest) =
      some (' ' :: (d.afterKeyword ++ rest)) := by
    have hsplit : d.render ++ rest = structWord ++ ' ' :: (d.afterKeyword ++ rest) :=
      List.append_assoc structWord (' ' :: d.afterKeyword) rest
    rw [hsplit]
    exact Text.dropPrefix?_append structWord _
  simp only [structMatcher, hbefore, Bool.false_eq_true, if_false, hprefix, Option.bind_eq_bind,
    Option.bind_some, hblanks, List.findSome?_singleton]
  rcases afterName? name (d.afterKeyword ++ rest) with _ | body
  · rfl
  · rfl

theorem Findable.scan_self {before : Option Char} (hbefore : before.any isWord = false)
    (rest : Text) :
  Text.scanFirstFrom? (structMatcher d.name) before (d.render ++ rest) =
    some ((), d.body ++ '}' :: ';' :: rest)
  := by
  have hmatch : structMatcher d.name before (d.render ++ rest) =
      some ((), d.body ++ '}' :: ';' :: rest) := by
    have hsplit : d.afterKeyword ++ rest =
        d.name ++ ' ' :: '{' :: (d.body ++ '}' :: ';' :: rest) := by
      simp [afterKeyword]
    rw [h.structMatcher_render d.name hbefore, hsplit, afterName?_self h.name]
    rfl
  have hhead : d.render ++ rest = 's' :: ("truct".toList ++ ' ' :: d.afterKeyword ++ rest) := rfl
  rw [hhead] at hmatch ⊢
  rw [Text.scanFirstFrom?, hmatch]

theorem Findable.avoids :
  Text.Avoids structWord (some 's')
    ("truct".toList ++ ' ' :: (d.name ++ ' ' :: '{' :: (d.body ++ ['}'])))
  := by
  have hword : "truct".toList.all isWord := by decide
  constructor
  · intro hboundary
    contradiction
  · have hspace : isWord ' ' = false := rfl
    have hopen : isWord '{' = false := rfl
    have hclose : isWord '}' = false := rfl
    rw [Text.runs_append hspace, Text.runs_of_forall (List.all_eq_true.mp hword),
      List.singleton_append, List.tail_cons, Text.runs_append hspace,
      Text.runs_cons_boundary hopen, Text.runs_append hclose]
    have hnot := h.word
    rw [Text.runs_append rfl, List.mem_append, not_or] at hnot
    have hnil : structWord ∉ Text.runs [] := by decide
    have hne : structWord ≠ [] := by decide
    simp [hnot, hnil, hne]

theorem Findable.scan_other {name : Text} (hname : Text.isIdent name) (hne : name ≠ d.name)
    (before : Option Char) (rest : Text) :
  Text.scanFirstFrom? (structMatcher name) before (d.render ++ rest) =
    Text.scanFirstFrom? (structMatcher name) (some ';') rest
  := by
  have hmatch : structMatcher name before (d.render ++ rest) = none := by
    by_cases hbefore : before.any isWord
    · rw [structMatcher, if_pos hbefore]
    · have hsplit : d.afterKeyword ++ rest =
          d.name ++ ' ' :: ('{' :: (d.body ++ '}' :: ';' :: rest)) := by
        simp [afterKeyword]
      rw [h.structMatcher_render name (by simpa using hbefore), hsplit,
        afterName?_of_ne hname h.name hne]
      rfl
  have hhead : d.render ++ rest = 's' :: ("truct".toList ++
      ' ' :: (d.name ++ ' ' :: '{' :: (d.body ++ ['}'])) ++ ';' :: rest) := by
    have hword : structWord = 's' :: "truct".toList := rfl
    rw [render, afterKeyword, hword, List.cons_append, List.cons_append, List.append_assoc,
      List.append_assoc]
    simp only [List.cons_append, List.append_assoc, List.nil_append]
  rw [hhead] at hmatch ⊢
  rw [Text.scanFirstFrom?, hmatch]
  apply scanFirstFrom?_of_avoids h.avoids

omit h

/-- In a sequence of structs, the first one with a given name is found. -/
theorem structBody?_flatMap {front back : List StructDef} (hd : d.Findable)
    (hfront : ∀ e ∈ front, e.Findable ∧ d.name ≠ e.name) :
  structBody? ((front ++ d :: back).flatMap render) d.name = some d.body
  := by
  have hscan : ∀ before : Option Char, before.any isWord = false →
      Text.scanFirstFrom? (structMatcher d.name) before ((front ++ d :: back).flatMap render) =
        some ((), d.body ++ '}' :: ';' :: back.flatMap render) := by
    induction front with
    | nil =>
        intro before hbefore
        apply hd.scan_self hbefore
    | cons e front ih =>
        intro before hbefore
        obtain ⟨he, hne⟩ := hfront e List.mem_cons_self
        rw [List.cons_append, List.flatMap_cons, he.scan_other hd.name hne]
        apply ih (fun e' he' => hfront e' (List.mem_cons_of_mem e he')) (some ';') rfl
  rw [structBody?, Text.scanFirst?, hscan none rfl]
  simp [closingBrace?_append hd.body]

end StructDef

end ContractInterface.Header
