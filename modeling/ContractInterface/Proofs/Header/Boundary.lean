import ContractInterface.Proofs.Header.Brace
import ContractInterface.Proofs.Header.Occurrence
import ContractInterface.Proofs.Header.Statement

/-!
# Boundaries between members

The members of a body follow each other.  A member boundary is the beginning of the body, the
place behind a semicolon outside braces, and the place behind the body of a method that starts at
a member boundary; blanks may follow.  Closing braces that close nothing may stand in front of such
a method.  At a member boundary the statements of a body are divided: nothing but blanks is left of
what precedes it.

What the division into statements does with a part of a body is a judgment `Reads`: from the
number of open braces and the statement so far, it gives the statements that end in the part, the
number of braces that are then open, and the statement that then has begun.  Judgments about
consecutive parts compose.
-/

namespace ContractInterface.Header

open Text

/-! ### Reading a part of a body -/

/-- Reading a part of a body, from a number of open braces and a statement so far, gives
statements, and leaves a number of open braces and a statement so far. -/
def Reads (depth : Nat) (current part : Text) (pieces : List Text) (depth' : Nat)
    (current' : Text) : Prop :=
  ∀ rest, splitFrom depth current (part ++ rest) = pieces ++ splitFrom depth' current' rest

namespace Reads

variable {depth depth' depth'' : Nat} {current current' current'' part part' : Text}
  {pieces pieces' : List Text}

theorem append (h : Reads depth current part pieces depth' current')
    (h' : Reads depth' current' part' pieces' depth'' current'') :
  Reads depth current (part ++ part') (pieces ++ pieces') depth'' current''
  := by
  intro rest
  rw [List.append_assoc, h, h', List.append_assoc]

theorem of_unmarked (h : ∀ c ∈ part, c ∉ statementMarks) (depth : Nat) (current : Text) :
  Reads depth current part [] depth (part.reverse ++ current)
  := splitFrom_append h depth current

theorem of_blanks (h : Blanks part) (depth : Nat) (current : Text) :
  Reads depth current part [] depth (part.reverse ++ current)
  := by
  apply of_unmarked
  intro c hc hmark
  have hblank := h c hc
  simp only [statementMarks, List.mem_cons, List.not_mem_nil, or_false] at hmark
  rcases hmark with rfl | rfl | rfl
  all_goals contradiction

theorem semicolon (current : Text) :
  Reads 0 current [';'] [current.reverse] 0 []
  := by
  intro rest
  rw [List.singleton_append, splitFrom, if_pos (by rfl)]
  rfl

theorem opening (depth : Nat) (current : Text) :
  Reads depth current ['{'] [] (depth + 1) ('{' :: current)
  := by
  intro rest
  rw [List.singleton_append, splitFrom, if_neg (by simp), if_pos rfl]
  rfl

/-- Where braces stay open, no statement ends. -/
theorem of_nested (h : ∀ front, front <+: part → 0 < depth + surplus front)
    (hdepth : (depth' : Int) = depth + surplus part) (current : Text) :
  Reads depth current part [] depth' (part.reverse ++ current)
  := by
  intro rest
  induction part generalizing depth current with
  | nil =>
      obtain rfl : depth' = depth := by
        rw [surplus_nil] at hdepth
        omega
      rfl
  | cons c part ih =>
      have hhere := h [] (List.nil_prefix)
      have hnext := h [c] (by simp)
      have hrest (front : Text) (hfront : front <+: part) :
          0 < depth + surplus [c] + surplus front := by
        have hcons := h (c :: front) (List.prefix_cons_inj c |>.mpr hfront)
        rw [surplus_cons] at hcons
        omega
      rw [surplus_nil] at hhere
      rw [surplus_cons] at hdepth
      have hsemicolon : ¬(c = ';' && depth == 0) := by
        simp only [Bool.and_eq_true, beq_iff_eq, decide_eq_true_eq]
        omega
      rw [List.cons_append, splitFrom, if_neg hsemicolon]
      by_cases hopen : c = '{'
      · subst hopen
        rw [surplus_open] at hrest hdepth
        rw [if_pos rfl, ih (by simpa using hrest) (by omega)]
        simp
      · by_cases hclose : c = '}'
        · subst hclose
          rw [surplus_close] at hnext hrest hdepth
          have hcast : ((depth - 1 : Nat) : Int) = depth + -1 := by omega
          have hmethod : ¬(depth - 1 = 0 && isMethod ('}' :: current).reverse) := by
            simp only [Bool.and_eq_true, decide_eq_true_eq, not_and]
            omega
          rw [if_neg hopen, if_pos rfl, if_neg hmethod, ih (by rwa [hcast]) (by omega)]
          simp
        · rw [surplus_singleton hopen hclose] at hrest hdepth
          rw [if_neg hopen, if_neg hclose, ih (by simpa using hrest) (by omega)]
          simp

/-- Inside a block nothing ends. -/
theorem of_balanced (h : Balanced part) (depth : Nat) (current : Text) :
  Reads (depth + 1) current part [] (depth + 1) (part.reverse ++ current)
  := by
  apply of_nested
  · intro front hfront
    have hnested := h.nested front hfront
    omega
  · rw [h.even]
    simp

theorem closing_of_isMethod (hdepth : depth - 1 = 0) (h : isMethod ('}' :: current).reverse) :
  Reads depth current ['}'] [('}' :: current).reverse] 0 []
  := by
  intro rest
  rw [List.singleton_append, splitFrom, if_neg (by simp), if_neg (by simp), if_pos rfl,
    if_pos (by simpa [hdepth] using h)]
  rfl

theorem closing_of_not_isMethod (h : depth - 1 = 0 → isMethod ('}' :: current).reverse = false) :
  Reads depth current ['}'] [] (depth - 1) ('}' :: current)
  := by
  intro rest
  rw [List.singleton_append, splitFrom, if_neg (by simp), if_neg (by simp), if_pos rfl,
    if_neg (by simpa using h)]
  rfl

/-- A header and the block behind it, up to its closing brace, are added to the statement. -/
theorem of_block {header body : Text} (hheader : ∀ c ∈ header, c ∉ statementMarks)
    (hbody : Balanced body) (current : Text) :
  Reads 0 current (header ++ '{' :: body) [] 1 ((header ++ '{' :: body).reverse ++ current)
  := by
  have hblock := (of_unmarked hheader 0 current).append
    ((opening 0 _).append (of_balanced hbody 0 _))
  simpa using hblock

end Reads

/-! ### Open braces -/

/-- The number of braces that are open behind a text, given the number of those that are open
before it.  A brace that closes nothing is passed over. -/
def openBraces (depth : Nat) (t : Text) : Nat :=
  t.foldl (fun depth c => if c = '{' then depth + 1 else if c = '}' then depth - 1 else depth) depth

theorem openBraces_append (depth : Nat) (s t : Text) :
  openBraces depth (s ++ t) = openBraces (openBraces depth s) t
  := List.foldl_append

theorem openBraces_cons (depth : Nat) (c : Char) (t : Text) :
  openBraces depth (c :: t) = openBraces (openBraces depth [c]) t
  := openBraces_append depth [c] t

theorem openBraces_plain {c : Char} (hopen : c ≠ '{') (hclose : c ≠ '}') (depth : Nat) :
  openBraces depth [c] = depth
  := by
  simp [openBraces, hopen, hclose]

theorem exists_reads_singleton (depth : Nat) (current : Text) (c : Char) :
  ∃ pieces current', Reads depth current [c] pieces (openBraces depth [c]) current'
  := by
  by_cases hopen : c = '{'
  · subst hopen
    exact ⟨[], _, Reads.opening depth current⟩
  · by_cases hclose : c = '}'
    · subst hclose
      by_cases hmethod : depth - 1 = 0 ∧ isMethod ('}' :: current).reverse
      · have hbraces : openBraces depth ['}'] = 0 := hmethod.1
        rw [hbraces]
        exact ⟨_, [], Reads.closing_of_isMethod hmethod.1 hmethod.2⟩
      · exact ⟨[], _, Reads.closing_of_not_isMethod fun hdepth => by simpa [hdepth] using hmethod⟩
    · rw [openBraces_plain hopen hclose]
      by_cases hend : c = ';' ∧ depth = 0
      · obtain ⟨rfl, rfl⟩ := hend
        exact ⟨_, [], Reads.semicolon current⟩
      · refine ⟨[], c :: current, ?_⟩
        intro rest
        rw [List.singleton_append, splitFrom, if_neg (by simpa using hend), if_neg hopen,
          if_neg hclose]
        rfl

/-- Whatever statements end in a part of a body, its braces are counted throughout. -/
theorem exists_reads (depth : Nat) (current part : Text) :
  ∃ pieces current', Reads depth current part pieces (openBraces depth part) current'
  := by
  induction part generalizing depth current with
  | nil => exact ⟨[], current, fun rest => rfl⟩
  | cons c part ih =>
      obtain ⟨pieces, current', hfirst⟩ := exists_reads_singleton depth current c
      obtain ⟨pieces', current'', hrest⟩ := ih (openBraces depth [c]) current'
      exact ⟨pieces ++ pieces', current'', hfirst.append hrest⟩

/-! ### Members with a block -/

/-- A statement with a block is a method if there is a parenthesis in its header. -/
theorem isMethod_append {header : Text} (h : '{' ∉ header) (block : Text) :
  isMethod (header ++ '{' :: block) = header.contains '('
  := by
  have hheader : ∀ c ∈ header, (c != '{') = true := by
    intro c hc
    rw [bne_iff_ne]
    rintro rfl
    contradiction
  rw [isMethod, (takeWhile_append_all hheader (by simp)).1]

/-- The characters in front of a block that tell what kind of member it belongs to. -/
def blockMarks : List Char := ['{', '(']

theorem not_mem_blockMarks {blanks : Text} (h : Blanks blanks) :
  ∀ c ∈ blanks, c ∉ blockMarks
  := by
  intro c hc hmark
  have hblank := h c hc
  simp only [blockMarks, List.mem_cons, List.not_mem_nil, or_false] at hmark
  rcases hmark with rfl | rfl
  all_goals contradiction

section Block

variable {header body current : Text} (hheader : ∀ c ∈ header, c ∉ statementMarks)
  (hcurrent : ∀ c ∈ current, c ∉ blockMarks)

include hheader hcurrent

theorem isMethod_block (body : Text) :
  isMethod ('}' :: ((header ++ '{' :: body).reverse ++ current)).reverse = header.contains '('
  := by
  have hopen : '{' ∉ current.reverse ++ header := by
    rw [List.mem_append, not_or, List.mem_reverse]
    refine ⟨fun hmem => hcurrent '{' hmem (by decide), ?_⟩
    intro hmem
    apply hheader '{' hmem
    decide
  have hparen : '(' ∉ current := fun hmem => hcurrent '(' hmem (by decide)
  have hsplit : ('}' :: ((header ++ '{' :: body).reverse ++ current)).reverse =
      (current.reverse ++ header) ++ '{' :: (body ++ ['}']) := by
    simp
  rw [hsplit, isMethod_append hopen]
  simp [hparen]

variable (hbody : Balanced body)

include hbody

/-- At a member boundary a method is one statement. -/
theorem Reads.of_method (hparen : '(' ∈ header) :
  Reads 0 current (header ++ '{' :: (body ++ ['}']))
    [current.reverse ++ (header ++ '{' :: (body ++ ['}']))] 0 []
  := by
  have hmethod : isMethod ('}' :: ((header ++ '{' :: body).reverse ++ current)).reverse = true := by
    rw [isMethod_block hheader hcurrent]
    simpa using hparen
  have hread := (Reads.of_block hheader hbody current).append
    (Reads.closing_of_isMethod rfl hmethod)
  simpa using hread

/-- At a member boundary a nested type with a semicolon behind it is one statement. -/
theorem Reads.of_nestedType (hparen : '(' ∉ header) :
  Reads 0 current (header ++ '{' :: (body ++ ['}', ';']))
    [current.reverse ++ (header ++ '{' :: (body ++ ['}']))] 0 []
  := by
  have hmethod :
      isMethod ('}' :: ((header ++ '{' :: body).reverse ++ current)).reverse = false := by
    rw [isMethod_block hheader hcurrent]
    simpa using hparen
  have hread := ((Reads.of_block hheader hbody current).append
    (Reads.closing_of_not_isMethod fun _ => hmethod)).append (Reads.semicolon _)
  simpa using hread

end Block

/-- Braces that close nothing are added to the statement. -/
theorem Reads.of_strays {strays : Text} (h : ∀ c ∈ strays, c ∉ ';' :: blockMarks) {current : Text}
    (hcurrent : ∀ c ∈ current, c ∉ blockMarks) :
  Reads 0 current strays [] 0 (strays.reverse ++ current)
  := by
  intro rest
  induction strays generalizing current with
  | nil => rfl
  | cons c strays ih =>
      obtain ⟨hc, hstrays⟩ := List.forall_mem_cons.mp h
      simp only [List.mem_cons, not_or] at hc
      have hnext : ∀ d ∈ c :: current, d ∉ blockMarks := List.forall_mem_cons.mpr ⟨hc.2, hcurrent⟩
      have hopen : c ≠ '{' := by
        rintro rfl
        simp [blockMarks] at hc
      have hmethod : isMethod (c :: current).reverse = false := by
        rw [isMethod, List.contains_eq_mem, decide_eq_false_iff_not]
        intro hmem
        apply hnext '(' (List.mem_reverse.mp ((List.takeWhile_prefix _).subset hmem))
        decide
      rw [List.cons_append, splitFrom, if_neg (by simp [hc.1]), if_neg hopen, hmethod,
        Bool.and_false, if_neg Bool.false_ne_true, Nat.zero_sub, ite_self, ih hstrays hnext]
      simp

/-! ### Boundaries -/

/-- Texts that end at a member boundary. -/
inductive AtBoundary : Text → Prop
  | blank {blanks : Text} (h : Blanks blanks) : AtBoundary blanks
  /-- Behind a semicolon outside braces. -/
  | semicolon {front blanks : Text} (hfront : openBraces 0 front = 0) (h : Blanks blanks) :
    AtBoundary (front ++ ';' :: blanks)
  /-- Behind a method that starts at a member boundary, or at braces there that close nothing. -/
  | method {front strays header body blanks : Text} (hfront : AtBoundary front)
      (hstrays : ∀ c ∈ strays, c ∉ ';' :: blockMarks)
      (hheader : ∀ c ∈ header, c ∉ statementMarks) (hparen : '(' ∈ header)
      (hbody : Balanced body) (h : Blanks blanks) :
    AtBoundary (front ++ strays ++ (header ++ '{' :: (body ++ ['}'])) ++ blanks)

/-- At a member boundary only blanks are left of what precedes it. -/
theorem AtBoundary.exists_reads {front : Text} (h : AtBoundary front) :
  ∃ pieces blanks, Blanks blanks ∧ Reads 0 [] front pieces 0 blanks
  := by
  have hblanks {blanks : Text} (h : Blanks blanks) : Blanks (blanks.reverse ++ []) := by
    simpa [Blanks] using h
  induction h with
  | blank h => exact ⟨[], _, hblanks h, Reads.of_blanks h 0 []⟩
  | semicolon hfront h =>
      obtain ⟨pieces, current, hread⟩ := Header.exists_reads 0 [] _
      rw [hfront] at hread
      have hend := (Reads.semicolon current).append (Reads.of_blanks h 0 [])
      exact ⟨_, _, hblanks h, hread.append hend⟩
  | @method front strays header body blanks hfront hstrays hheader hparen hbody h ih =>
      obtain ⟨pieces, current, hcurrent, hread⟩ := ih
      have hcurrent := not_mem_blockMarks hcurrent
      have hread := hread.append (Reads.of_strays hstrays hcurrent)
      have hcurrent : ∀ c ∈ strays.reverse ++ current, c ∉ blockMarks := by
        intro c hc hmark
        rcases List.mem_append.mp hc with hc | hc
        · apply hstrays c (List.mem_reverse.mp hc) (List.mem_cons_of_mem _ hmark)
        · apply hcurrent c hc hmark
      have hmethod := Reads.of_method hheader hcurrent hbody hparen
      exact ⟨_, _, hblanks h, (hread.append hmethod).append (Reads.of_blanks h 0 [])⟩

/-! ### Statements behind a boundary -/

theorem collapse_append_blanks {blanks : Text} (h : Blanks blanks) (t : Text) :
  collapse (blanks ++ t) = collapse t
  := by
  rw [collapse, words_append_left h, collapse]

theorem isMethod_append_blanks {blanks : Text} (h : Blanks blanks) (t : Text) :
  isMethod (blanks ++ t) = isMethod t
  := by
  have hopen : ∀ c ∈ blanks, (c != '{') = true := by
    intro c hc
    rw [bne_iff_ne]
    rintro rfl
    exact not_mem_of_blanks h rfl hc
  have hparen : '(' ∉ blanks := not_mem_of_blanks h rfl
  rw [isMethod, List.takeWhile_append_of_pos hopen, isMethod]
  simp [hparen]

/-- Blanks in front of a statement do not matter. -/
theorem map_collapse_splitFrom {blanks : Text} (h : Blanks blanks) (depth : Nat)
    (current t : Text) :
  (splitFrom depth (current ++ blanks) t).map collapse =
    (splitFrom depth current t).map collapse
  := by
  have hreverse : Blanks blanks.reverse := by simpa [Blanks] using h
  have hcollapse (s : Text) : collapse (s ++ blanks).reverse = collapse s.reverse := by
    rw [List.reverse_append, collapse_append_blanks hreverse]
  have hmethod (s : Text) : isMethod (s ++ blanks).reverse = isMethod s.reverse := by
    rw [List.reverse_append, isMethod_append_blanks hreverse]
  induction t generalizing depth current with
  | nil => simp only [splitFrom, List.map_cons, List.map_nil, hcollapse]
  | cons c t ih =>
      have ih (depth : Nat) := ih depth (c :: current)
      simp only [List.cons_append] at ih
      simp only [splitFrom, ← List.cons_append, hmethod]
      simp only [List.cons_append]
      split
      · simp only [List.map_cons, hcollapse]
      · split
        · apply ih
        · split
          · split
            · simp only [List.map_cons, ← List.cons_append, hcollapse]
            · apply ih
          · apply ih

end ContractInterface.Header
