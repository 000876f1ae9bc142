import ContractInterface.Proofs.Header.Extent
import ContractInterface.Proofs.Header.Registration
import ContractInterface.Proofs.Program.Compile
import ContractInterface.Proofs.Resolution.Termination

/-!
# Headers without their comments

A header is compiled without its comments, and the comments of its parts are removed once more
where the parts are read: those of a struct body, of the source of the constants, and of every
expression.  All these are remnants of the source, in which there are no comments left.  So nothing
is removed later, and a header and the same header without its comments are compiled alike.
-/

namespace ContractInterface

namespace Expr.Definition

open Text

theorem infix_of_takeConstexpr? {t rest : Text} {d : Definition}
    (h : takeConstexpr? t = some (d, rest)) :
  d.expr <:+: t
  := by
  simp only [takeConstexpr?, Option.bind_eq_bind, Option.bind_eq_some_iff] at h
  obtain ⟨head, hhead, name, -, back, hback, ⟨expr, semicolon, rest'⟩, hcut, h⟩ := h
  split at h
  · contradiction
  · obtain ⟨rfl, -⟩ := Prod.mk.inj (Option.some.inj h)
    have hexpr := (cutAt?_eq_some_iff.mp hcut).1
    have hsuffix : back <:+ t :=
      (suffix_of_dropPrefix? hback).trans
        ((List.dropWhile_suffix _).trans (suffix_of_dropPrefix? hhead))
    apply (infix_trim expr).trans
    apply List.IsInfix.trans _ hsuffix.isInfix
    rw [hexpr]
    exact (List.prefix_append expr _).isInfix

theorem suffix_of_afterSpaces? {t rest : Text} (h : afterSpaces? t = some rest) :
  rest <:+ t
  := by
  cases t with
  | nil => contradiction
  | cons c t =>
      simp only [afterSpaces?, Option.ite_none_right_eq_some, Option.some.injEq] at h
      obtain ⟨-, rfl⟩ := h
      exact (List.dropWhile_suffix _).trans (List.suffix_cons c t)

theorem infix_of_takeDefine? {t rest : Text} {d : Definition}
    (h : takeDefine? t = some (d, rest)) :
  d.expr <:+: t
  := by
  simp only [takeDefine?, Option.bind_eq_bind, Option.bind_eq_some_iff, Option.some.injEq,
    Prod.mk.injEq] at h
  obtain ⟨t₁, h₁, t₂, h₂, t₃, h₃, ⟨name, t₄⟩, h₄, t₅, h₅, rfl, -⟩ := h
  have hmark : t₁ <:+ t := (suffix_of_dropPrefix? h₁).trans (List.dropWhile_suffix _)
  have hword : t₂ <:+ t₁ := (suffix_of_dropPrefix? h₂).trans (List.dropWhile_suffix _)
  have hname : t₄ <:+ t₃ := Header.Statement.suffix_of_takeIdent? h₄
  have hsuffix : t₅ <:+ t :=
    (suffix_of_afterSpaces? h₅).trans
      (hname.trans ((suffix_of_afterSpaces? h₃).trans (hword.trans hmark)))
  apply (infix_trim _).trans
  exact (List.takeWhile_prefix _).isInfix.trans hsuffix.isInfix

/-- The expression of a definition is a piece of the source. -/
theorem infix_of_mem_all {source : Text} {d : Definition} (h : d ∈ all source) :
  d.expr <:+: source
  := by
  obtain ⟨before, t, rest, hsuffix, hmatch⟩ := exists_of_mem_scan h
  rw [matcher] at hmatch
  apply List.IsInfix.trans _ hsuffix.isInfix
  split at hmatch
  · rename_i found hfound
    obtain rfl := Option.some.inj hmatch
    exact infix_of_takeConstexpr? hfound
  · split at hmatch
    · exact infix_of_takeDefine? hmatch
    · contradiction

end Expr.Definition

/-- A document without the time at which it was made. -/
def Document.undated {δ : Type} (d : Document δ) : Document δ :=
  { d with provenance := d.provenance.map fun p => { p with generatedAt := none } }

namespace Header

open Text

/-! ### Aliases -/

theorem infix_of_typedefParts? {t target : Text} {name : String}
    (h : typedefParts? t = some (name, target)) :
  target <:+: t
  := by
  simp only [typedefParts?, Option.ite_none_right_eq_some, Option.some.injEq, Prod.mk.injEq] at h
  obtain ⟨-, -, rfl⟩ := h
  apply (infix_trim _).trans
  apply (List.rdropWhile_prefix _ _).isInfix.trans
  exact (List.rdropWhile_prefix _ _).isInfix

theorem infix_of_usingParts? {t target : Text} {name : String}
    (h : usingParts? t = some (name, target)) :
  target <:+: t
  := by
  simp only [usingParts?, Option.bind_eq_bind, Option.bind_eq_some_iff] at h
  obtain ⟨t₁, h₁, ⟨ident, t₂⟩, h₂, t₃, h₃, h⟩ := h
  split at h
  · contradiction
  · obtain ⟨-, rfl⟩ := Prod.mk.inj (Option.some.inj h)
    have hname : t₂ <:+ t₁ := Statement.suffix_of_takeIdent? h₂
    have hsuffix : t₃ <:+ t :=
      (suffix_of_dropPrefix? h₃).trans ((List.dropWhile_suffix _).trans
        (hname.trans (Statement.suffix_of_afterBlanks? h₁)))
    exact (infix_trim _).trans hsuffix.isInfix

theorem infix_of_aliasMatcher {keyword : String} {parts? : Text → Option (String × Text)}
    (hparts : ∀ {t target name}, parts? t = some (name, target) → target <:+: t)
    {before : Option Char} {t target rest : Text} {name : String}
    (h : aliasMatcher keyword parts? before t = some ((name, target), rest)) :
  target <:+: t
  := by
  simp only [aliasMatcher, Option.bind_eq_bind, Option.bind_eq_some_iff, Option.some.injEq,
    Prod.mk.injEq] at h
  obtain ⟨⟨statement, rest'⟩, hstatement, ⟨name', target'⟩, hfound, ⟨rfl, rfl⟩, rfl⟩ := h
  apply (hparts hfound).trans
  simp only [takeStatement?, Option.ite_none_left_eq_some, Option.bind_eq_bind,
    Option.bind_eq_some_iff, Option.some.injEq, Prod.mk.injEq] at hstatement
  obtain ⟨-, t₁, h₁, ⟨inside, semicolon, back⟩, hcut, after, hafter, rfl, -⟩ := hstatement
  have hsuffix : t₁ <:+ t := (suffix_of_dropPrefix? h₁).trans (List.dropWhile_suffix _)
  apply List.IsInfix.trans _ hsuffix.isInfix
  rw [(cutAt?_eq_some_iff.mp hcut).1]
  exact (List.prefix_append inside _).isInfix

/-- The target of an alias is a piece of the source. -/
theorem infix_of_aliasTable {source target : Text} {name : String}
    (h : (aliasTable source).get? name = some target) :
  target <:+: source
  := by
  rcases List.mem_append.mp (Assignments.mem_of_get?_ofList h) with hmem | hmem
  · obtain ⟨before, t, rest, hsuffix, hmatch⟩ := exists_of_mem_scan hmem
    exact (infix_of_aliasMatcher infix_of_typedefParts? hmatch).trans hsuffix.isInfix
  · obtain ⟨before, t, rest, hsuffix, hmatch⟩ := exists_of_mem_scan hmem
    exact (infix_of_aliasMatcher infix_of_usingParts? hmatch).trans hsuffix.isInfix

/-! ### Lengths -/

/-- The types that a header declares: those of the members of its structs, the targets of its
aliases, and the items of array templates among these. -/
inductive Scope.Declared (scope : Scope) : Text → Prop
  | member {name body statement : Text} {m : Member}
      (hbody : structBody? scope.source name = some body) (hstatement : statement ∈ statements body)
      (hm : Statement.ofText statement = .declares m) : scope.Declared m.type
  | target {name : String} {target : Text} (hget : scope.aliases.get? name = some target) :
    scope.Declared target
  | item {declared item length : Text} (h : scope.Declared declared)
      (hname : CatalogType.ofName? (typeName declared) = some (.fixedArray item length)) :
    scope.Declared item

/-- The lengths that a header declares: those between the brackets of a member, and those in array
templates. -/
inductive Scope.DeclaredLength (scope : Scope) : Text → Prop
  | member {name body statement length : Text} {m : Member}
      (hbody : structBody? scope.source name = some body) (hstatement : statement ∈ statements body)
      (hm : Statement.ofText statement = .declares m) (hlength : length ∈ m.lengths) :
    scope.DeclaredLength length
  | array {declared item length : Text} (h : scope.Declared declared)
      (hname : CatalogType.ofName? (typeName declared) = some (.fixedArray item length)) :
    scope.DeclaredLength length
  | bitArray {declared bits : Text} (h : scope.Declared declared)
      (hname : CatalogType.ofName? (typeName declared) = some (.bitArray bits)) :
    scope.DeclaredLength bits

section Remnants

variable {scope : Scope} (haliases : scope.aliases = aliasTable scope.source)

theorem remnant_of_argument {declared argument : Text} {known : CatalogType}
    (hname : CatalogType.ofName? (typeName declared) = some known)
    (hargument : argument ∈ known.arguments) :
  Remnant argument declared
  := by
  have hpiece := (CatalogType.infix_of_ofName? hname hargument).1
  exact (Remnant.of_isInfix hpiece).trans (remnant_typeName declared)

include haliases

theorem Scope.Declared.remnant {declared : Text} (h : scope.Declared declared) :
  Remnant declared scope.source
  := by
  induction h with
  | member hbody hstatement hm =>
      apply (Remnant.of_isInfix (Statement.infix_of_ofText hm).1).trans
      apply (remnant_of_mem_statements hstatement).trans
      exact .of_isInfix (infix_of_structBody? hbody).2
  | target hget =>
      rw [haliases] at hget
      exact .of_isInfix (infix_of_aliasTable hget)
  | item h hname ih => exact (remnant_of_argument hname List.mem_cons_self).trans ih

theorem Scope.DeclaredLength.remnant {length : Text} (h : scope.DeclaredLength length) :
  Remnant length scope.source
  := by
  cases h with
  | member hbody hstatement hm hlength =>
      apply (Remnant.of_isInfix ((Statement.infix_of_ofText hm).2 length hlength)).trans
      apply (remnant_of_mem_statements hstatement).trans
      exact .of_isInfix (infix_of_structBody? hbody).2
  | array h hname =>
      apply (remnant_of_argument hname _).trans (h.remnant haliases)
      exact List.mem_cons_of_mem _ List.mem_cons_self
  | bitArray h hname =>
      exact (remnant_of_argument hname List.mem_cons_self).trans (h.remnant haliases)

end Remnants

/-! ### Compiling without comments -/

theorem stripComments_stripComments (t : Text) :
  stripComments (stripComments t) = stripComments t
  := uncommented_iff.mp (uncommented_stripComments t)

theorem outline_stripComments (seed : Table Int) (header : Text) :
  outline seed (stripComments header) = outline seed header
  := by
  rw [outline, stripComments_stripComments, outline]

theorem compile_undated (options : CompileOptions) (time : Option String) (seed : Table Int)
    (header : Text) :
  Document.undated <$> compile { options with generatedAt := time } seed header =
    Document.undated <$> compile options seed header
  := by
  unfold compile Outline.compile
  rcases outline seed header with e | o
  · rfl
  · dsimp only [Except.mapError, bind, Except.bind]
    rcases (compileEntries o.scope o.registrations).run.run ResolverState.start
      with ⟨e | entries, state⟩
    · rfl
    · rfl

/-- No comment is left in a header without its comments, nor in any piece of it.  So no comments
are removed from it later on: not from the bodies of its structs, not from the source of its
constants and not from their expressions, and not from the lengths that it declares.  It is
compiled as the header itself, apart from the time. -/
theorem stripComments_repeatable (header : Text) :
  let source := stripComments header
  (¬['/', '/'] <:+: source ∧ ∀ v, v <:+ source → ¬OpensBlock v) ∧
  (∀ piece, piece <:+: source → stripComments piece = piece) ∧
  stripComments source = source ∧
  (∀ name body, structBody? source name = some body → stripComments body = body) ∧
  (∀ d ∈ Expr.Definition.all (stripComments source), stripComments d.expr = d.expr) ∧
  (∀ constants length, Scope.DeclaredLength ⟨source, constants, aliasTable source⟩ length →
    stripComments length = length) ∧
  ∀ options time seed,
    Document.undated <$> compile { options with generatedAt := time } seed source =
      Document.undated <$> compile options seed header
  := by
  intro source
  have hsource : Uncommented source := uncommented_stripComments header
  have hremnant {u : Text} (hu : Remnant u source) : stripComments u = u :=
    (hsource.of_remnant hu).stripComments_eq
  refine ⟨⟨hsource.line, hsource.block⟩, fun piece hpiece => hremnant (.of_isInfix hpiece),
    hsource.stripComments_eq, ?_, ?_, ?_, ?_⟩
  · intro name body hbody
    exact hremnant (.of_isInfix (infix_of_structBody? hbody).2)
  · intro d hd
    rw [hsource.stripComments_eq] at hd
    exact hremnant (.of_isInfix (Expr.Definition.infix_of_mem_all hd))
  · intro constants length hlength
    exact hremnant (hlength.remnant rfl)
  · intro options time seed
    rw [compile_undated, compile, outline_stripComments, compile]

/-- A header with comments around its struct and inside of it. -/
def commentedHeader : Text :=
  "constexpr uint64 N = 2 /* two */ + 1; // three\nstruct A \x7b uint8 a[/**/N]; // /* a\n \x7d;".toList

theorem stripComments_repeatable_commentedHeader :
  let source := stripComments commentedHeader
  let body := " uint8 a[ N]; \n ".toList
  structBody? source "A".toList = some body ∧ stripComments body = body ∧
  (∃ d ∈ Expr.Definition.all (stripComments source), stripComments d.expr = d.expr) ∧
  Scope.DeclaredLength ⟨source, [], aliasTable source⟩ "N".toList ∧
  stripComments "N".toList = "N".toList
  := by
  have hbody : structBody? (stripComments commentedHeader) "A".toList =
      some " uint8 a[ N]; \n ".toList := by
    decide +kernel
  have hdefinition : ⟨"N", "2   + 1".toList⟩ ∈
      Expr.Definition.all (stripComments (stripComments commentedHeader)) := by
    decide +kernel
  have hstatement : "uint8 a[ N]".toList ∈ statements " uint8 a[ N]; \n ".toList := by
    decide +kernel
  have hm : Statement.ofText "uint8 a[ N]".toList =
      .declares (.array "uint8".toList "a".toList ["N".toList]) := by
    decide +kernel
  have hlength : Scope.DeclaredLength
      ⟨stripComments commentedHeader, [], aliasTable (stripComments commentedHeader)⟩
      "N".toList :=
    .member hbody hstatement hm List.mem_cons_self
  obtain ⟨-, -, -, hbodies, hdefinitions, hlengths, -⟩ := stripComments_repeatable commentedHeader
  exact ⟨hbody, hbodies _ _ hbody, ⟨_, hdefinition, hdefinitions _ hdefinition⟩, hlength,
    hlengths [] _ hlength⟩

end Header

end ContractInterface
