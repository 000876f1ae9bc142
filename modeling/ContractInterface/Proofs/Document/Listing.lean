import ContractInterface.Proofs.Document.Sides
import ContractInterface.Proofs.Header.Occurrence
import Mathlib.Data.List.Sort
import Mathlib.Data.Prod.Lex
import Mathlib.Data.String.Basic

/-!
# The entries of a compiled document

A compiled document lists every registration that occurs in the source once, by number, then by
name, then functions before procedures, and then by position.  The compiler compares numbers and
names only; that the rest is in order is due to the stability of its sort, which is given all
functions in textual order, and after them all procedures.

Entries with the same name have the same structs, which are resolved only once, so their sides are
the same.
-/

namespace ContractInterface

/-! ### Stable sorts -/

section Stable

variable {α : Type} {le : α → α → Bool} {l : List α}

/-- Sorting does not change the order of elements that are all below each other. -/
theorem filter_mergeSort (htrans : ∀ a b c, le a b → le b c → le a c)
    (htotal : ∀ a b, le a b || le b a) {p : α → Bool} (hp : ∀ a b, p a → p b → le a b) :
  (l.mergeSort le).filter p = l.filter p
  := by
  have hordered : (l.filter p).Pairwise fun a b => le a b := by
    rw [List.pairwise_iff_forall_sublist]
    intro a b hab
    apply hp
    · exact (List.mem_filter.mp (hab.subset List.mem_cons_self)).2
    · exact (List.mem_filter.mp (hab.subset (List.mem_cons_of_mem a List.mem_cons_self))).2
  have hsublist : (l.filter p).Sublist ((l.mergeSort le).filter p) := by
    have hkept := List.sublist_mergeSort htrans htotal hordered List.filter_sublist
    simpa using hkept.filter p
  have hlength : ((l.mergeSort le).filter p).length = (l.filter p).length :=
    ((List.mergeSort_perm l le).filter p).length_eq
  exact (hsublist.eq_of_length hlength.symm).symm

/-- In a sorted list, elements that are below each other are in the order they were in before. -/
theorem pairwise_mergeSort_stable (htrans : ∀ a b c, le a b → le b c → le a c)
    (htotal : ∀ a b, le a b || le b a) {r : α → α → Prop} (h : l.Pairwise r) :
  (l.mergeSort le).Pairwise fun a b => le a b ∧ (le b a → r a b)
  := by
  rw [List.pairwise_iff_forall_sublist]
  intro a b hab
  have hle : le a b :=
    List.pairwise_iff_forall_sublist.mp (List.pairwise_mergeSort htrans htotal l) hab
  refine ⟨hle, ?_⟩
  intro hle'
  -- the elements that are equivalent to the first one keep their order
  have hrefl : le a a := by
    simpa using htotal a a
  have hequivalent : ∀ c d, le a c && le c a → le a d && le d a → le c d := by
    intro c d hc hd
    rw [Bool.and_eq_true] at hc hd
    exact htrans c a d hc.2 hd.1
  have hfilter := hab.filter fun c => le a c && le c a
  rw [filter_mergeSort htrans htotal hequivalent, List.filter_eq_self.mpr] at hfilter
  · exact List.pairwise_iff_forall_sublist.mp h (hfilter.trans List.filter_sublist)
  · simp [hrefl, hle, hle']

end Stable

/-! ### The order of entries -/

/-- Functions come before procedures. -/
def EntryKind.rank : EntryKind → Nat
  | .function => 0
  | .procedure => 1

/-- The kind, the name and the number of an entry. -/
abbrev Heading := EntryKind × String × Int

namespace Heading

/-- Headings are compared by number and then by name. -/
def le (p q : Heading) : Bool :=
  p.2.2 < q.2.2 || (p.2.2 == q.2.2 && p.2.1 ≤ q.2.1)

theorem le_iff {p q : Heading} :
  le p q ↔ toLex (p.2.2, p.2.1) ≤ toLex (q.2.2, q.2.1)
  := by
  simp [le, Prod.Lex.toLex_le_toLex]

theorem le_trans (p q r : Heading) (h : le p q) (h' : le q r) :
  le p r
  := by
  rw [le_iff] at h h' ⊢
  exact h.trans h'

theorem le_total (p q : Heading) :
  le p q || le q p
  := by
  rw [Bool.or_eq_true, le_iff, le_iff]
  apply LinearOrder.le_total

end Heading

/-- The heading of an entry. -/
def Entry.heading {δ : Type} (e : Entry δ) : Heading := (e.kind, e.name, e.inputType)

/-- The heading that a registration gives to its entry. -/
def Registration.heading (r : Registration) : Heading := (r.kind, r.name, r.inputType)

namespace Occurrence

/-- Occurrences are listed by number, then by name, then functions before procedures, and then by
position. -/
def key (o : Occurrence) : ℕ ×ₗ String ×ₗ ℕ ×ₗ ℕ :=
  toLex (o.registration.inputType,
    toLex (o.registration.name, toLex (o.registration.kind.rank, o.position)))

/-- All occurrences in a source, each once, in order. -/
structure Listing (source : Text) (os : List Occurrence) : Prop where
  complete : ∀ o, o ∈ os ↔ o.Occurs source
  ordered : os.Pairwise fun o o' => o.key < o'.key

variable {source : Text} {os os' : List Occurrence}

theorem Listing.unique (h : Listing source os) (h' : Listing source os') :
  os = os'
  := by
  have hnodup {os : List Occurrence} (h : Listing source os) : os.Nodup := by
    apply h.ordered.imp
    rintro o _ hlt rfl
    exact lt_irrefl _ hlt
  have hperm : os.Perm os' := by
    rw [List.perm_ext_iff_of_nodup (hnodup h) (hnodup h')]
    intro o
    rw [h.complete, h'.complete]
  apply hperm.eq_of_pairwise _ h.ordered h'.ordered
  intro o o' _ _ hlt hlt'
  exact absurd hlt' hlt.asymm

/-- The occurrences in a source as they are found: functions first, each kind in textual order. -/
def found (source : Text) : List Occurrence :=
  ofKind .function source ++ ofKind .procedure source

theorem mem_found {o : Occurrence} :
  o ∈ found source ↔ o.Occurs source
  := by
  rw [found, List.mem_append, mem_ofKind, mem_ofKind, ← or_and_right]
  cases o.registration.kind with
  | function => simp
  | procedure => simp

theorem pairwise_found (source : Text) :
  (found source).Pairwise fun o o' =>
    toLex (o.registration.kind.rank, o.position) < toLex (o'.registration.kind.rank, o'.position)
  := by
  have hkind (kind : EntryKind) : (ofKind kind source).Pairwise fun o o' =>
      toLex (o.registration.kind.rank, o.position) <
        toLex (o'.registration.kind.rank, o'.position) := by
    apply (pairwise_ofKind kind source).imp_of_mem
    intro o o' ho ho' hlt
    rw [(mem_ofKind.mp ho).1, (mem_ofKind.mp ho').1, Prod.Lex.toLex_lt_toLex]
    exact .inr ⟨rfl, hlt⟩
  rw [found, List.pairwise_append]
  refine ⟨hkind .function, hkind .procedure, ?_⟩
  intro o ho o' ho'
  rw [(mem_ofKind.mp ho).1, (mem_ofKind.mp ho').1, Prod.Lex.toLex_lt_toLex]
  exact .inl Nat.zero_lt_one

/-- Sorting what is found by number and name puts it in order. -/
theorem listing_mergeSort (source : Text) :
  Listing source ((found source).mergeSort fun o o' =>
    Heading.le o.registration.heading o'.registration.heading)
  where
  complete := by
    intro o
    rw [List.mem_mergeSort, mem_found]
  ordered := by
    have hstable := @pairwise_mergeSort_stable Occurrence
      (fun o o' => Heading.le o.registration.heading o'.registration.heading) (found source)
      (fun _ _ _ => Heading.le_trans _ _ _) (fun _ _ => Heading.le_total _ _) _
      (pairwise_found source)
    apply hstable.imp
    rintro o o' ⟨hle, htie⟩
    simp only [Heading.le_iff, Prod.Lex.toLex_le_toLex, Registration.heading, Nat.cast_lt,
      Nat.cast_inj] at hle htie
    simp only [key, Prod.Lex.toLex_lt_toLex (y := (o'.registration.inputType, _)),
      Prod.Lex.toLex_lt_toLex (y := (o'.registration.name, _))]
    rcases hle with hnumber | ⟨hnumber, hname⟩
    · exact .inl hnumber
    · refine .inr ⟨hnumber, ?_⟩
      rcases hname.lt_or_eq with hname | hname
      · exact .inl hname
      · exact .inr ⟨hname, htie (.inr ⟨hnumber.symm, hname.ge⟩)⟩

/-- The registrations that are read off a source are those that are found in it. -/
theorem map_registration_found {rs : List Registration} (h : Registration.all source = .ok rs) :
  rs = (found source).map registration
  := by
  obtain ⟨functions, hfunctions, h⟩ := bind_eq_ok_iff.mp h
  obtain ⟨procedures, hprocedures, h⟩ := bind_eq_ok_iff.mp h
  obtain rfl := Except.ok.inj h
  rw [map_registration_ofKind hfunctions, map_registration_ofKind hprocedures, found,
    List.map_append]

end Occurrence

namespace Header

/-! ### Entries with the same name -/

/-- What is recorded for a side depends on its name only. -/
theorem Recorded.unique {scope : Scope} {s : ResolverState} {side side' : Side}
    (h : Recorded scope s side) (h' : Recorded scope s side') (hname : side.name = side'.name) :
  side.type = side'.type ∧ side.size = side'.size
  := by
  cases hbody : structBody? scope.source side.name.toList with
  | none =>
      obtain ⟨htype, hsize⟩ := h.absent hbody
      rw [hname] at hbody
      obtain ⟨htype', hsize'⟩ := h'.absent hbody
      exact ⟨htype.trans htype'.symm, hsize.trans hsize'.symm⟩
  | some body =>
      obtain ⟨fields, hget, htype, hsize⟩ := h.declared body hbody
      rw [hname] at hbody hget
      obtain ⟨fields', hget', htype', hsize'⟩ := h'.declared body hbody
      rw [hget] at hget'
      obtain rfl := TypeDesc.struct.inj (Option.some.inj hget')
      exact ⟨htype.trans htype'.symm, hsize.trans hsize'.symm⟩

/-- Entries whose sides are recorded have the same sides if they have the same name. -/
theorem sides_eq_of_recorded {scope : Scope} {s : ResolverState} {e e' : Entry TypeDesc}
    (h : ∀ side ∈ sidesOf e, Recorded scope s side)
    (h' : ∀ side ∈ sidesOf e', Recorded scope s side) (hname : e.name = e'.name) :
  (e.input = e'.input ∧ e.inputSize = e'.inputSize) ∧
    (e.output = e'.output ∧ e.outputSize = e'.outputSize)
  := by
  simp only [sidesOf, List.forall_mem_cons, List.not_mem_nil, false_implies, implies_true,
    and_true] at h h'
  exact ⟨h.1.unique h'.1 (by rw [hname]), h.2.unique h'.2 (by rw [hname])⟩

/-! ### Documents -/

theorem registrations_of_outline {seed : Table Int} {header : Text} {o : Outline}
    (h : outline seed header = .ok o) :
  Registration.all (stripComments header) = .ok o.registrations
  := by
  obtain ⟨constants, -, h⟩ := bind_eq_ok_iff.mp h
  obtain ⟨rs, hrs, h⟩ := bind_eq_ok_iff.mp h
  obtain rfl := Except.ok.inj h
  exact hrs

theorem map_heading_of_run {scope : Scope} {rs : List Registration} {es : List (Entry TypeDesc)}
    (h : ((compileEntries scope rs).outcome .start).1 = .ok es) :
  es.map Entry.heading = rs.map Registration.heading
  := by
  have hheadings : List.Forall₂ (· = ·) (rs.map Registration.heading) (es.map Entry.heading) := by
    rw [List.forall₂_map_left_iff, List.forall₂_map_right_iff]
    apply (recorded_of_compileEntries (Prod.ext h rfl)).imp
    rintro r e ⟨⟨hkind, hname, hnumber⟩, -⟩
    rw [Registration.heading, Entry.heading, hkind, hname, hnumber]
  rw [List.forall₂_eq_eq_eq] at hheadings
  exact hheadings.symm

/-- The entries of a compiled document are the registrations that occur in the source without its
comments, each once, in the only order that there is by number, name, kind and position.  Entries
with the same name have the same sides. -/
theorem listing_of_compile {options : CompileOptions} {seed : Table Int} {header : Text}
    {d : Document TypeDesc} (h : compile options seed header = .ok d) :
  (∃ os, Occurrence.Listing (stripComments header) os ∧
    (∀ os', Occurrence.Listing (stripComments header) os' → os' = os) ∧
    d.entries.map Entry.heading = os.map fun o => o.registration.heading) ∧
  ∀ e ∈ d.entries, ∀ e' ∈ d.entries, e.name = e'.name →
    (e.input = e'.input ∧ e.inputSize = e'.inputSize) ∧
    (e.output = e'.output ∧ e.outputSize = e'.outputSize)
  := by
  obtain ⟨-, -, o, es, ho, hes, hentries⟩ := exists_of_compile_eq_ok h
  constructor
  · have hlisting := Occurrence.listing_mergeSort (stripComments header)
    refine ⟨_, hlisting, fun os' hos' => hos'.unique hlisting, ?_⟩
    have hfound := Occurrence.map_registration_found (registrations_of_outline ho)
    calc
      d.entries.map Entry.heading
        = (es.map Entry.heading).mergeSort Heading.le := by
            rw [hentries]
            apply List.map_mergeSort
            exact fun _ _ _ _ => rfl
      _ = ((Occurrence.found (stripComments header)).map
            fun o => o.registration.heading).mergeSort Heading.le := by
            rw [map_heading_of_run hes, hfound, List.map_map]
            rfl
      _ = _ := by
            symm
            apply List.map_mergeSort
            exact fun _ _ _ _ => rfl
  · have hrecorded := recorded_of_compileEntries (Prod.ext hes rfl)
    have hsides (e : Entry TypeDesc) (he : e ∈ d.entries) : ∀ side ∈ sidesOf e,
        Recorded o.scope ((compileEntries o.scope o.registrations).outcome .start).2 side := by
      rw [hentries, List.mem_mergeSort] at he
      obtain ⟨r, -, -, hside⟩ := exists_of_mem_left hrecorded.flip he
      exact hside
    intro e he e' he' hname
    exact sides_eq_of_recorded (hsides e he) (hsides e' he') hname

/-- A header that registers an entry twice, and again as a procedure, with another one between
them. -/
def repetitiveHeader : Text :=
  "REGISTER_USER_PROCEDURE(B, 2); REGISTER_USER_FUNCTION (B,2) ; // and\n".toList ++
    "REGISTER_USER_FUNCTION(A, 2); REGISTER_USER_FUNCTION( B, 2);".toList

theorem listing_of_compile_repetitive :
  Registration.all (stripComments repetitiveHeader) =
    .ok [⟨.function, "B", 2⟩, ⟨.function, "A", 2⟩, ⟨.function, "B", 2⟩, ⟨.procedure, "B", 2⟩] ∧
  ∃ d, compile sampleOptions [] repetitiveHeader = .ok d ∧
    (∃ os, Occurrence.Listing (stripComments repetitiveHeader) os ∧
      (∀ os', Occurrence.Listing (stripComments repetitiveHeader) os' → os' = os) ∧
      d.entries.map Entry.heading = os.map fun o => o.registration.heading) ∧
    ∀ e ∈ d.entries, ∀ e' ∈ d.entries, e.name = e'.name →
      (e.input = e'.input ∧ e.inputSize = e'.inputSize) ∧
      (e.output = e'.output ∧ e.outputSize = e'.outputSize)
  := by
  have hok : (compile sampleOptions [] repetitiveHeader).isOk = true := by decide +kernel
  obtain ⟨d, hd⟩ := exists_of_isOk hok
  exact ⟨by decide +kernel, d, hd, listing_of_compile hd⟩

end Header

end ContractInterface
