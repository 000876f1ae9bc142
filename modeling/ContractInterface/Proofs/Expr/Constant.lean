import ContractInterface.Expr.Constant
import ContractInterface.Proofs.Except
import ContractInterface.Proofs.Header.Comment
import ContractInterface.Proofs.Resolution.Outcome
import ContractInterface.Proofs.Text.Run
import ContractInterface.Proofs.Text.Scan

/-!
# Constants of texts that follow each other

A header is compiled behind a prelude, in one text with it.  The constants of that text are those
of the header on top of those of the prelude, since no definition and no comment reaches from the
one into the other:

* a `#define` line ends with its line, and a `constexpr` declaration at the first semicolon, so it
  ends in the prelude if there is a semicolon behind every `constexpr` (`Closed`);
* a block comment ends in the prelude if none is left open there, and a line comment ends with its
  line.

In a table each name has the value of the last definition of it that has one, and that value is
reckoned with the table of the definitions before it.
-/

namespace ContractInterface

namespace Text

/-! ### Taking parts off the front of a text that goes on -/

theorem dropPrefix?_append_of_not_mem (word : Text) {c : Char} (h : c ∉ word) (t rest : Text) :
  dropPrefix? word (t ++ c :: rest) = (dropPrefix? word t).map (· ++ c :: rest)
  := by
  induction word generalizing t with
  | nil => rfl
  | cons d word ih =>
      obtain ⟨hc, hword⟩ : c ≠ d ∧ c ∉ word := by simpa using h
      cases t with
      | nil => simp [dropPrefix?, hc.symm]
      | cons e t =>
          rw [List.cons_append, dropPrefix?, dropPrefix?, ih hword]
          split
          · rfl
          · rfl

/-- A run of characters of a class ends in a text that has a character of another class. -/
theorem takeWhile_append_of_mem {p : Char → Bool} {c : Char} {t : Text} (hc : c ∈ t)
    (hp : p c = false) (rest : Text) :
  (t ++ rest).takeWhile p = t.takeWhile p ∧ (t ++ rest).dropWhile p = t.dropWhile p ++ rest ∧
    c ∈ t.dropWhile p
  := by
  induction t with
  | nil => contradiction
  | cons d t ih =>
      by_cases hd : p d
      · have hne : c ≠ d := by
          rintro rfl
          rw [hp] at hd
          contradiction
        simpa [hd] using ih (List.mem_of_ne_of_mem hne hc)
      · simpa [hd] using hc

theorem cutAt?_append_of_mem {p : Char → Bool} {c : Char} {t : Text} (hc : c ∈ t) (hp : p c)
    (rest : Text) :
  cutAt? p (t ++ rest) =
    (cutAt? p t).map fun (before, d, after) => (before, d, after ++ rest)
  := by
  induction t with
  | nil => contradiction
  | cons d t ih =>
      rw [List.cons_append, cutAt?, cutAt?]
      by_cases hd : p d
      · rw [if_pos hd, if_pos hd]
        rfl
      · have hne : c ≠ d := by
          rintro rfl
          contradiction
        rw [if_neg hd, if_neg hd, ih (List.mem_of_ne_of_mem hne hc), Option.map_map,
          Option.map_map]
        rfl

/-- A run of characters that are no line ends does not go beyond its line. -/
theorem takeWhile_append_line {p : Char → Bool} (hp : p '\n' = false) (t rest : Text) :
  (t ++ '\n' :: rest).takeWhile p = t.takeWhile p ∧
    (t ++ '\n' :: rest).dropWhile p = t.dropWhile p ++ '\n' :: rest
  := by
  apply takeWhile_append_stop
  intro c hc
  obtain rfl : '\n' = c := by simpa using hc
  exact hp

theorem takeIdent?_append_line (t rest : Text) :
  takeIdent? (t ++ '\n' :: rest) = (takeIdent? t).map (Prod.map id (· ++ '\n' :: rest))
  := by
  cases t with
  | nil => rfl
  | cons c t =>
      obtain ⟨htake, hdrop⟩ := takeWhile_append_line (isWord_of_isBlank (by decide)) t rest
      rw [List.cons_append, takeIdent?, takeIdent?, htake, hdrop]
      split
      · rfl
      · rfl

end Text

namespace Expr

open Header

namespace Definition

/-! ### Definitions in a text that goes on -/

/-- Behind every `constexpr` in a text there is a semicolon. -/
def Closed (t : Text) : Prop :=
  ∀ u ∈ t.tails, "constexpr".toList <+: u → ';' ∈ u

instance : DecidablePred Closed :=
  fun t => inferInstanceAs (Decidable (∀ u ∈ t.tails, "constexpr".toList <+: u → ';' ∈ u))

theorem afterSpaces?_append_line (t rest : Text) :
  afterSpaces? (t ++ '\n' :: rest) = (afterSpaces? t).map (· ++ '\n' :: rest)
  := by
  cases t with
  | nil => rfl
  | cons c t =>
      obtain ⟨-, hdrop⟩ := Text.takeWhile_append_line (p := isSpaceOrTab) (by decide) t rest
      rw [List.cons_append, afterSpaces?, afterSpaces?, hdrop]
      split
      · rfl
      · rfl

/-- A `#define` line is the same, whatever follows it on other lines. -/
theorem takeDefine?_append_line (t rest : Text) :
  takeDefine? (t ++ '\n' :: rest) = (takeDefine? t).map (Prod.map id (· ++ '\n' :: rest))
  := by
  have hspaces := fun t => (Text.takeWhile_append_line (p := isSpaceOrTab) (by decide) t rest).2
  have hline := fun t => Text.takeWhile_append_line (p := (· != '\n')) (by decide) t rest
  have hmark := Text.dropPrefix?_append_of_not_mem ['#'] (c := '\n') (by decide)
  have hword := Text.dropPrefix?_append_of_not_mem "define".toList (c := '\n') (by decide)
  simp only [takeDefine?, Option.bind_eq_bind, hspaces, hmark, hword, afterSpaces?_append_line,
    Text.takeIdent?_append_line, (hline _).1, (hline _).2, Option.bind_map, Option.map_bind,
    Function.comp_def, Option.map_some, Prod.map, id]

/-- A `constexpr` declaration that is closed is the same, whatever follows it. -/
theorem takeConstexpr?_append_line {t : Text} (h : "constexpr".toList <+: t → ';' ∈ t)
    (rest : Text) :
  takeConstexpr? (t ++ '\n' :: rest) = (takeConstexpr? t).map (Prod.map id (· ++ '\n' :: rest))
  := by
  rw [takeConstexpr?, takeConstexpr?,
    Text.dropPrefix?_append_of_not_mem _ (c := '\n') (by decide)]
  cases hkeyword : Text.dropPrefix? "constexpr".toList t with
  | none => rfl
  | some head =>
      have ht := Text.eq_append_of_dropPrefix? hkeyword
      have hhead : ';' ∈ head := by
        rw [ht, List.mem_append] at h
        exact (h (List.prefix_append _ _)).resolve_left (by decide)
      obtain ⟨htake, hdrop, hbehind⟩ := Text.takeWhile_append_of_mem
        (p := fun c => isTypeChar c || isBlank c) hhead (by decide) ('\n' :: rest)
      simp only [Option.map_some, Option.bind_eq_bind, Option.bind_some, htake, hdrop,
        Text.dropPrefix?_append_of_not_mem ['='] (c := '\n') (by decide)]
      cases declaredName? (head.takeWhile fun c => isTypeChar c || isBlank c) with
      | none => rfl
      | some name =>
          cases hequals : Text.dropPrefix? ['='] (head.dropWhile fun c => isTypeChar c || isBlank c)
            with
          | none => rfl
          | some body =>
              have hbody : ';' ∈ body := by
                rw [Text.eq_append_of_dropPrefix? hequals, List.mem_append] at hbehind
                exact hbehind.resolve_left (by decide)
              simp only [Option.map_some, Option.bind_some,
                Text.cutAt?_append_of_mem (p := (· == ';')) hbody (by decide) ('\n' :: rest)]
              cases Text.cutAt? (· == ';') body with
              | none => rfl
              | some cut =>
                  simp only [Option.map_some, Option.bind_some]
                  split
                  · rfl
                  · rfl

theorem matcher_append_line {t : Text} (h : "constexpr".toList <+: t → ';' ∈ t)
    (before : Option Char) (rest : Text) :
  matcher before (t ++ '\n' :: rest) = (matcher before t).map (Prod.map id (· ++ '\n' :: rest))
  := by
  rw [matcher, matcher, takeConstexpr?_append_line h, takeDefine?_append_line]
  cases takeConstexpr? t with
  | some found => rfl
  | none =>
      rw [Option.map_none]
      dsimp only
      split
      · rfl
      · rfl

/-- A text at the start of a line has the same definitions as on its own. -/
theorem scanFrom_matcher_line (t : Text) :
  Text.scanFrom matcher (some '\n') 0 t = all t
  := by
  cases t with
  | nil => rfl
  | cons c t => rfl

/-- The definitions of two texts that follow each other on lines of their own are those of the one
and then those of the other. -/
theorem all_append_line {t : Text} (h : Closed t) (rest : Text) :
  all (t ++ '\n' :: rest) = all t ++ all rest
  := by
  rw [all, Text.scan, ← scanFrom_matcher_line rest]
  apply Text.scanFrom_append _ _ (Nat.zero_le _)
  · intro before
    rw [matcher]
    simp [takeConstexpr?, takeDefine?, Text.dropPrefix?]
  · intro before u hu
    apply matcher_append_line
    apply h u ((List.mem_tails u t).mpr hu)

end Definition

/-! ### Tables of constants -/

variable {seed known known' : Table Int}

/-- What a definition does to a table: it changes nothing but the value of its name, and that only
if its expression has one. -/
theorem get?_of_define {d : Definition} (h : define known d = .ok known') (name : String) :
  ∃ value, evaluate known d.expr = .ok value ∧
    known'.get? name = if d.name = name then value.or (known.get? name) else known.get? name
  := by
  obtain ⟨value, hvalue, h⟩ := bind_eq_ok_iff.mp h
  refine ⟨value, hvalue, ?_⟩
  cases value with
  | none =>
      obtain rfl : known = known' := Except.ok.inj h
      simp
  | some n =>
      obtain rfl : known.insert d.name n = known' := Except.ok.inj h
      split
      · rename_i hname
        rw [hname, Assignments.get?_insert_self]
        rfl
      · rename_i hname
        rw [Assignments.get?_insert_of_ne _ _ (Ne.symm hname)]

/-- Definitions of other names do not change the value of a name. -/
theorem get?_of_foldlM_define {definitions : List Definition}
    (h : definitions.foldlM define known = .ok known') {name : String}
    (hname : ∀ d ∈ definitions, d.name ≠ name) :
  known'.get? name = known.get? name
  := by
  induction definitions generalizing known with
  | nil =>
      obtain rfl : known = known' := Except.ok.inj h
      rfl
  | cons d definitions ih =>
      obtain ⟨hd, hrest⟩ := List.forall_mem_cons.mp hname
      rw [List.foldlM_cons] at h
      obtain ⟨middle, hmiddle, h⟩ := bind_eq_ok_iff.mp h
      obtain ⟨value, -, hget⟩ := get?_of_define hmiddle name
      rw [ih h hrest, hget, if_neg hd]

/-- A name has the value of its last definition, reckoned with the table of what is defined before
it; if that has no value, the name keeps the one from before. -/
theorem get?_of_constantTable {source : Text} {before after : List Definition} {d : Definition}
    (h : constantTable seed source = .ok known)
    (hall : Definition.all (stripComments source) = before ++ d :: after)
    (hlast : ∀ e ∈ after, e.name ≠ d.name) :
  ∃ earlier value, before.foldlM define seed = .ok earlier ∧ evaluate earlier d.expr = .ok value ∧
    known.get? d.name = value.or (earlier.get? d.name)
  := by
  rw [constantTable, hall, List.foldlM_append] at h
  obtain ⟨earlier, hearlier, h⟩ := bind_eq_ok_iff.mp h
  rw [List.foldlM_cons] at h
  obtain ⟨middle, hmiddle, h⟩ := bind_eq_ok_iff.mp h
  obtain ⟨value, hvalue, hget⟩ := get?_of_define hmiddle d.name
  refine ⟨earlier, value, hearlier, hvalue, ?_⟩
  rw [get?_of_foldlM_define h hlast, hget, if_pos rfl]

/-- The constants of a header behind a prelude are those of the header on top of those of the
prelude, if the prelude closes every block comment that it opens, and every `constexpr`
declaration.  So what the prelude defines keeps its value, unless the header defines the same name;
and in any text the value of a name depends on its last definition and on what stands before that,
and not on later definitions of other names. -/
theorem constantTable_append_line {prelude : Text}
    (hblocks : ¬['/', '*'] <:+: dropBlocks false prelude)
    (hclosed : Definition.Closed (stripComments prelude)) (seed : Table Int) (source : Text) :
  constantTable seed (prelude ++ '\n' :: source) =
    (do constantTable (← constantTable seed prelude) source) ∧
  (∀ known known', constantTable seed prelude = .ok known →
    constantTable seed (prelude ++ '\n' :: source) = .ok known' →
    ∀ name, (∀ d ∈ Definition.all (stripComments source), d.name ≠ name) →
      known'.get? name = known.get? name) ∧
  ∀ text known before d after, constantTable seed text = .ok known →
    Definition.all (stripComments text) = before ++ d :: after → (∀ e ∈ after, e.name ≠ d.name) →
    ∃ earlier value, before.foldlM define seed = .ok earlier ∧
      evaluate earlier d.expr = .ok value ∧ known.get? d.name = value.or (earlier.get? d.name)
  := by
  have happend : constantTable seed (prelude ++ '\n' :: source) =
      (do constantTable (← constantTable seed prelude) source) := by
    rw [constantTable, stripComments_append_line hblocks, Definition.all_append_line hclosed,
      List.foldlM_append]
    rfl
  refine ⟨happend, ?_, ?_⟩
  · intro known known' hknown hknown' name hname
    rw [happend, hknown] at hknown'
    apply get?_of_foldlM_define hknown' hname
  · intro text known before d after h hall hlast
    exact get?_of_constantTable h hall hlast

/-- A prelude with a comment that would open a declaration, a declaration over two lines, and a
last line that is not ended. -/
def awkwardPrelude : Text :=
  "/* constexpr */ constexpr int A =\n2; // /* */\n#define B A * X".toList

/-- A header that redefines a constant of the prelude. -/
def awkwardHeader : Text :=
  "#define A 5\nconstexpr int C = A + B;".toList

theorem constantTable_append_line_awkward :
  let text := awkwardPrelude ++ '\n' :: awkwardHeader
  let known : Table Int := [("X", 3), ("A", 2), ("B", 6)]
  let known' : Table Int := [("X", 3), ("A", 5), ("B", 6), ("C", 11)]
  ¬['/', '*'] <:+: dropBlocks false awkwardPrelude ∧
  Definition.Closed (stripComments awkwardPrelude) ∧
  constantTable [("X", 3)] awkwardPrelude = .ok known ∧
  constantTable [("X", 3)] text = .ok known' ∧
  constantTable [("X", 3)] text =
    (do constantTable (← constantTable [("X", 3)] awkwardPrelude) awkwardHeader) ∧
  known'.get? "B" = known.get? "B"
  := by
  intro text known known'
  have hblocks : ¬['/', '*'] <:+: dropBlocks false awkwardPrelude := by decide +kernel
  have hclosed : Definition.Closed (stripComments awkwardPrelude) := by decide +kernel
  have hknown : constantTable [("X", 3)] awkwardPrelude = .ok known := by decide +kernel
  have hknown' : constantTable [("X", 3)] text = .ok known' := by decide +kernel
  have hother : ∀ d ∈ Definition.all (stripComments awkwardHeader), d.name ≠ "B" := by
    decide +kernel
  obtain ⟨happend, hkept, -⟩ :=
    constantTable_append_line hblocks hclosed [("X", 3)] awkwardHeader
  exact ⟨hblocks, hclosed, hknown, hknown', happend, hkept known known' hknown hknown' "B" hother⟩

end Expr

end ContractInterface
