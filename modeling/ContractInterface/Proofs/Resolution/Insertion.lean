import ContractInterface.Proofs.Header.Boundary
import ContractInterface.Proofs.Header.Comment
import ContractInterface.Proofs.Header.SetAside
import ContractInterface.Proofs.Resolution.Termination

/-!
# Members outside the layout

A nested type or a method in the body of a struct is one statement, whatever its block contains,
and the statement is set aside.  So the body has the same layout with and without it: resolving
the two bodies gives the same, and leaves the same state, including the warnings.
-/

namespace ContractInterface.Header

open Text Resolution

/-! ### Texts without comments and directives -/

/-- Texts with neither comments nor directives. -/
structure Verbatim (t : Text) : Prop where
  directive : '#' ∉ t
  line : ¬['/', '/'] <:+: t
  block : ¬['/', '*'] <:+: t

instance (t : Text) : Decidable (Verbatim t) :=
  decidable_of_iff ('#' ∉ t ∧ ¬['/', '/'] <:+: t ∧ ¬['/', '*'] <:+: t)
    ⟨fun ⟨directive, line, block⟩ => ⟨directive, line, block⟩,
      fun h => ⟨h.directive, h.line, h.block⟩⟩

/-- Two texts without comments have none together, unless one is opened where they meet. -/
theorem Verbatim.stripComments_append {s t : Text} (h : Verbatim s) (hlast : s.getLast? ≠ some '/')
    (ht : stripComments t = t) :
  stripComments (s ++ t) = s ++ t
  := by
  rw [Header.stripComments_append h.line h.block fun hslash => absurd hslash hlast, ht]

theorem Verbatim.stripComments {t : Text} (h : Verbatim t) :
  stripComments t = t
  := by
  have hstrip := Header.stripComments_append h.line h.block fun _ => rfl
  rw [List.append_nil] at hstrip
  rw [hstrip]
  apply List.append_nil

/-- Pieces of a body with blanks collapsed and empty ones left out. -/
def tidied (pieces : List Text) : List Text :=
  (pieces.map collapse).filter fun s => !s.isEmpty

theorem tidied_append (pieces pieces' : List Text) :
  tidied (pieces ++ pieces') = tidied pieces ++ tidied pieces'
  := by
  rw [tidied, List.map_append, List.filter_append, tidied, tidied]

/-- The statements of a body without comments and directives. -/
theorem statements_of_stripComments {body : Text} (h : stripComments body = body)
    (hdirective : '#' ∉ body) :
  statements body = tidied (splitFrom 0 [] body)
  := by
  rw [statements, h, blankDirectives_of_not_mem hdirective, tidied]

/-- A text that ends with blanks behind a mark does not open a comment at its end. -/
theorem getLast?_append_blanks {c : Char} (hc : c ≠ '/') {blanks : Text} (h : Blanks blanks)
    (front : Text) :
  (front ++ c :: blanks).getLast? ≠ some '/'
  := by
  rw [List.getLast?_append_of_ne_nil _ (List.cons_ne_nil c blanks)]
  intro hlast
  rcases List.mem_cons.mp (List.mem_of_getLast? hlast) with rfl | hmem
  · contradiction
  · exact not_mem_of_blanks h rfl hmem

theorem AtBoundary.getLast?_ne {front : Text} (h : AtBoundary front) :
  front.getLast? ≠ some '/'
  := by
  cases h with
  | blank h =>
      intro hlast
      exact not_mem_of_blanks h rfl (List.mem_of_getLast? hlast)
  | semicolon hfront h => exact getLast?_append_blanks (by decide) h _
  | @method front strays header body blanks hfront hstrays hheader hparen hbody h =>
      have hsplit : front ++ strays ++ (header ++ '{' :: (body ++ ['}'])) ++ blanks =
          (front ++ strays ++ (header ++ '{' :: body)) ++ '}' :: blanks := by simp
      rw [hsplit]
      exact getLast?_append_blanks (by decide) h _

/-! ### Nested types and methods -/

/-- The keywords of nested types. -/
def typeKeywords : List String := ["struct", "class", "enum", "union"]

/-- The members outside the layout that have a block. -/
inductive OutsideLayout : Text → Prop
  | nestedType {keyword : String} {header body : Text} (hkeyword : keyword ∈ typeKeywords)
      (hword : header.startsWord = false) (hheader : ∀ c ∈ header, c ∉ statementMarks)
      (hparen : '(' ∉ header) (hbody : Balanced body) :
    OutsideLayout (keyword.toList ++ header ++ '{' :: (body ++ ['}', ';']))
  /-- A method, also one that is an operator. -/
  | method {header body : Text} (hheader : ∀ c ∈ header, c ∉ statementMarks)
      (hparen : '(' ∈ header) (hoperator : Statement.OperatorFirst header)
      (hbody : Balanced body) :
    OutsideLayout (header ++ '{' :: (body ++ ['}']))

theorem OutsideLayout.getLast?_ne {member : Text} (h : OutsideLayout member) :
  member.getLast? ≠ some '/'
  := by
  have hlast (front block : Text) (c : Char) (hc : c ≠ '/') :
      (front ++ '{' :: (block ++ [c])).getLast? ≠ some '/' := by
    have hsplit : front ++ '{' :: (block ++ [c]) = (front ++ '{' :: block) ++ [c] := by simp
    rw [hsplit, List.getLast?_concat]
    simpa using hc
  cases h with
  | @nestedType keyword header body hkeyword hword hheader hparen hbody =>
      have hsplit : body ++ ['}', ';'] = (body ++ ['}']) ++ [';'] := by simp
      rw [hsplit]
      exact hlast _ _ ';' (by decide)
  | method hheader hparen hoperator hbody => exact hlast _ _ '}' (by decide)

/-- At a member boundary, such a member is one statement, and it is set aside. -/
theorem OutsideLayout.exists_reads {member current : Text} (h : OutsideLayout member)
    (hcurrent : Blanks current) :
  ∃ statement, Reads 0 current member [statement] 0 [] ∧
    Statement.ofText (collapse statement) = .skipped
  := by
  have hmarks := not_mem_blockMarks hcurrent
  have hblanks : Blanks current.reverse := by simpa [Blanks] using hcurrent
  cases h with
  | @nestedType keyword header body hkeyword hword hheader hparen hbody =>
      have hkeywords : ∀ keyword ∈ typeKeywords, keyword ∈ Statement.nonDataKeywords ∧
          keyword.toList ≠ [] ∧ '(' ∉ keyword.toList ∧
          keyword.toList.all fun c => isWord c ∧ c ∉ statementMarks := by decide
      obtain ⟨hnondata, hne, hopen, hall⟩ := hkeywords keyword hkeyword
      have hchars : ∀ c ∈ keyword.toList, isWord c ∧ c ∉ statementMarks := forall_mem_of_all hall
      have hheader : ∀ c ∈ keyword.toList ++ header, c ∉ statementMarks := by
        intro c hc
        rcases List.mem_append.mp hc with hc | hc
        · exact (hchars c hc).2
        · exact hheader c hc
      have hparen : '(' ∉ keyword.toList ++ header := by simp [hopen, hparen]
      refine ⟨_, Reads.of_nestedType hheader hmarks hbody hparen, ?_⟩
      have hboundary : (header ++ '{' :: (body ++ ['}'])).startsWord = false := by
        cases header with
        | nil => rfl
        | cons c header => exact hword
      have hfirst := (takeWhile_append_boundary (fun c hc => (hchars c hc).1) hboundary).1
      apply Statement.ofText_of_keyword hnondata
      rw [collapse_append_blanks hblanks, takeWhile_collapse, List.append_assoc,
        trimLeft_of_takeWhile (by rwa [hfirst]), hfirst]
  | @method header body hheader hparen hoperator hbody =>
      refine ⟨_, Reads.of_method hheader hmarks hbody hparen, ?_⟩
      rw [collapse_append_blanks hblanks]
      apply Statement.ofText_of_operatorFirst
      · exact (hoperator.append hparen _).collapse
      · rw [mem_collapse rfl]
        exact List.mem_append_left _ hparen

/-! ### Statements that are set aside -/

/-- A statement that is set aside adds nothing to its struct. -/
theorem resolveStatements_skipped (scope : Scope) (resolve : Text → Resolution TypeDesc)
    {statement : Text} (h : Statement.ofText statement = .skipped) (front back : List Text) :
  resolveStatements scope resolve (front ++ statement :: back) =
    resolveStatements scope resolve (front ++ back)
  := by
  induction front with
  | nil => simp [resolveStatements, resolveStatement, h]
  | cons first front ih =>
      rw [List.cons_append, resolveStatements, ih, List.cons_append, resolveStatements]

section Insertion

variable {front member back : Text} (hfront : Verbatim front) (hboundary : AtBoundary front)
  (hmember : Verbatim member) (houtside : OutsideLayout member) (hback : Verbatim back)

include hfront hboundary hmember houtside hback

/-- At a member boundary a member outside the layout adds at most a statement that is set aside. -/
theorem exists_statements_insert :
  ∃ before inserted after,
    statements (front ++ member ++ back) = before ++ inserted ++ after ∧
      statements (front ++ back) = before ++ after ∧
      ∀ statement ∈ inserted, Statement.ofText statement = .skipped
  := by
  obtain ⟨pieces, current, hcurrent, hread⟩ := hboundary.exists_reads
  obtain ⟨statement, hstatement, hskipped⟩ := houtside.exists_reads hcurrent
  have hstrip := hback.stripComments
  refine ⟨tidied pieces, tidied [statement], tidied (splitFrom 0 [] back), ?_, ?_, ?_⟩
  · rw [List.append_assoc, statements_of_stripComments, hread, hstatement, tidied_append,
      tidied_append, List.append_assoc]
    · exact hfront.stripComments_append hboundary.getLast?_ne
        (hmember.stripComments_append houtside.getLast?_ne hstrip)
    · simp [hfront.directive, hmember.directive, hback.directive]
  · have hblanks := map_collapse_splitFrom hcurrent 0 [] back
    rw [List.nil_append] at hblanks
    rw [statements_of_stripComments, hread, tidied_append, tidied, tidied, hblanks, tidied]
    · exact hfront.stripComments_append hboundary.getLast?_ne hstrip
    · simp [hfront.directive, hback.directive]
  · intro s hs
    obtain rfl := List.mem_singleton.mp (List.mem_of_mem_filter hs)
    exact hskipped

/-- A nested type or a method at a member boundary of a body changes neither the struct nor the
warnings, nor anything else that a resolution leaves. -/
theorem Scope.outcome_resolveFields_insert (scope : Scope) (s : ResolverState) :
  (scope.resolveFields (front ++ member ++ back)).outcome s =
    (scope.resolveFields (front ++ back)).outcome s
  := by
  obtain ⟨before, inserted, after, hfull, hbare, hskipped⟩ :=
    exists_statements_insert hfront hboundary hmember houtside hback
  have hstatements : resolveStatements scope scope.resolve (before ++ inserted ++ after) =
      resolveStatements scope scope.resolve (before ++ after) := by
    clear hfull
    induction inserted with
    | nil => rw [List.append_nil]
    | cons statement inserted ih =>
        obtain ⟨hstatement, hrest⟩ := List.forall_mem_cons.mp hskipped
        rw [List.append_assoc, List.cons_append, resolveStatements_skipped _ _ hstatement,
          ← List.append_assoc, ih hrest]
  rw [scope.outcome_resolveFields, scope.outcome_resolveFields, resolveBody, hfull, hstatements,
    resolveBody, hbare]

end Insertion

/-- An operator whose block contains members of its own, behind a method. -/
theorem outcome_resolveFields_insert_operator :
  let scope : Scope := ⟨[], [], []⟩
  let front := "bit ok() { return 1; } ".toList
  let member := "A operator=(A a) { struct T { id q; }; id r; }".toList
  let back := "bit b;".toList
  (scope.resolveFields (front ++ member ++ back)).outcome .start =
    (.ok (.struct [("b", .scalar .bool)]), .start)
  := by
  intro scope front member back
  have hfront : Verbatim front := by decide +kernel
  have hmember : Verbatim member := by decide +kernel
  have hback : Verbatim back := by decide +kernel
  have hboundary : AtBoundary front := by
    have hsplit : front =
        [] ++ [] ++ ("bit ok() ".toList ++ '{' :: (" return 1; ".toList ++ ['}'])) ++ [' '] := by
      decide +kernel
    rw [hsplit]
    exact .method (.blank (by decide)) (by simp) (forall_mem_of_all (by decide)) (by decide)
      (by decide) (by decide)
  have houtside : OutsideLayout member := by
    have hsplit : member = "A operator=(A a) ".toList ++
        '{' :: (" struct T { id q; }; id r; ".toList ++ ['}']) := by decide +kernel
    rw [hsplit]
    exact .method (forall_mem_of_all (by decide)) (by decide) (by decide) (by decide +kernel)
  rw [scope.outcome_resolveFields_insert hfront hboundary hmember houtside hback]
  decide +kernel

end ContractInterface.Header
