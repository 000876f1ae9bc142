import ContractInterface.Proofs.Document.Entry
import ContractInterface.Proofs.Except
import Mathlib.Data.List.Perm.Basic

/-!
# The order of registrations

Entries are compiled with one resolver, so an entry can be affected by the ones before it.  What an
entry settles to is not: it belongs to the registration alone.  So a run that cuts no reference
gives the same entries in every order of the registrations.

If references are cut, the entries whose structs contain themselves depend on the order, since a
struct stays in the memo as it was when it was cut.  All other entries are the same in every order.
-/

namespace ContractInterface

/-- The registration that an entry was compiled for. -/
def Entry.registration {δ : Type} (e : Entry δ) : Registration :=
  ⟨e.kind, e.name, e.inputType.toNat⟩

namespace Header

open Resolution

/-- A resolver at its start compiles an entry without cutting a reference. -/
def Uncut (scope : Scope) (r : Registration) : Prop :=
  ((compileEntry scope r).outcome .start).2.Quiet

instance (scope : Scope) : DecidablePred (Uncut scope) :=
  fun r => inferInstanceAs (Decidable ((compileEntry scope r).outcome .start).2.Quiet)

section Order

variable {scope : Scope} {r : Registration} {rs rs' : List Registration}
  {es es' : List (Entry TypeDesc)} {s : ResolverState}

theorem Uncut.exists_settles (h : Uncut scope r) :
  ∃ result, Settles scope r result
  := by
  obtain ⟨-, hsettles⟩ := settles_of_quiet Prod.mk.eta.symm (fun _ => .start) h
  exact ⟨_, hsettles⟩

theorem registration_of_compileEntry {e : Entry TypeDesc} {s' : ResolverState}
    (h : (compileEntry scope r).outcome s = (.ok e, s')) :
  e.registration = r
  := by
  obtain ⟨input, output, t, -, -, rfl⟩ := exists_of_compileEntry h
  simp [Entry.registration]

/-- Along a run, entries are compiled for the registrations in their order, and a registration that
settles does so to its entry. -/
theorem forall₂_of_run (h : ((compileEntries scope rs).outcome .start).1 = .ok es) :
  List.Forall₂ (fun r e => e.registration = r ∧ ∀ result, Settles scope r result → result = .ok e)
    rs es
  := by
  rcases hrun : (compileEntries scope rs).outcome .start with ⟨result, s'⟩
  rw [hrun] at h
  obtain rfl : result = .ok es := h
  obtain ⟨-, hrs⟩ := forall₂_of_compileEntries
    (P := Idle scope)
    (R := fun r e _ => e.registration = r ∧ ∀ result, Settles scope r result → result = .ok e)
    (by
      intro r e s s' hs he
      use hs.of_outcome (preserves_compileEntry scope r) he (by simp)
      use registration_of_compileEntry he
      intro result hsettles
      rw [← hsettles.outcome_compileEntry hs, he])
    (by
      intro r e s s' hr _
      apply hr)
    hrun .start
  apply hrs

theorem map_registration_of_run (h : ((compileEntries scope rs).outcome .start).1 = .ok es) :
  es.map Entry.registration = rs
  := by
  have hrs : List.Forall₂ (· = ·) rs (es.map Entry.registration) := by
    rw [List.forall₂_map_right_iff]
    apply (forall₂_of_run h).imp
    intro r e hr
    apply hr.1.symm
  rw [List.forall₂_eq_eq_eq] at hrs
  apply hrs.symm

/-- The entries of a run that are not affected by cuts are what their registrations settle to. -/
theorem forall₂_settles_of_run (h : ((compileEntries scope rs).outcome .start).1 = .ok es) :
  List.Forall₂ (fun r e => Settles scope r (.ok e)) (rs.filter (Uncut scope ·))
    (es.filter (Uncut scope ·.registration))
  := by
  have hfilter := List.rel_filter
    (p := fun r => decide (Uncut scope r)) (q := fun e => decide (Uncut scope e.registration))
    (by
      intro r e hr
      simp only [hr.1])
    (forall₂_of_run h)
  have huncut : ∀ r ∈ rs.filter (Uncut scope ·), Uncut scope r := by
    intro r hr
    simpa using (List.mem_filter.mp hr).2
  apply ((List.forall₂_and_left _ _).mpr ⟨huncut, hfilter⟩).imp
  rintro r e ⟨hr, -, hsettled⟩
  obtain ⟨result, hsettles⟩ := hr.exists_settles
  rw [← hsettled result hsettles]
  apply hsettles

theorem rightUnique_settles (scope : Scope) :
  Relator.RightUnique fun r e => Settles scope r (.ok e)
  := by
  intro r e e' h h'
  apply Except.ok.inj (h.unique h')

/-- If nothing is cut in one order, then all orders give the same entries, or all of them stop. -/
theorem run_perm_of_quiet (hperm : rs.Perm rs')
    (hquiet : ((compileEntries scope rs).outcome .start).2.Quiet) :
  (∀ es, ((compileEntries scope rs).outcome .start).1 = .ok es →
    ∃ es', ((compileEntries scope rs').outcome .start).1 = .ok es' ∧ es'.Perm es) ∧
  ∀ e, ((compileEntries scope rs).outcome .start).1 = .error e →
    ∃ e', ((compileEntries scope rs').outcome .start).1 = .error e'
  := by
  rcases hrun : (compileEntries scope rs).outcome .start with ⟨result, s'⟩
  rw [hrun] at hquiet
  dsimp only
  constructor
  · rintro es rfl
    obtain ⟨-, hsettles⟩ := settles_of_quiet_run hrun (fun _ => .start) hquiet
    obtain ⟨es', hsettles', hes⟩ := List.perm_comp_forall₂ hperm.symm hsettles
    exact ⟨es', outcome_compileEntries_of_settles hsettles' .start, hes⟩
  · rintro e rfl
    -- the entry at which the run stops is one at which no order gets any further
    obtain ⟨r, hr, hsettles⟩ := exists_settles_of_quiet_error hrun (fun _ => .start) hquiet
    rcases hrun' : ((compileEntries scope rs').outcome .start).1 with e' | es'
    · exact ⟨e', rfl⟩
    · obtain ⟨entry, -, -, hsettled⟩ := exists_of_mem_left (forall₂_of_run hrun') (hperm.subset hr)
      have hok := hsettled _ hsettles
      contradiction

/-- The order of the registrations makes no difference to the entries, as long as no reference is
cut.  In any case every registration gets its entry, and the order makes no difference to the
entries for which a resolver at its start cuts no reference. -/
theorem compileEntries_perm (scope : Scope) {rs rs' : List Registration} (h : rs.Perm rs') :
  (((compileEntries scope rs).outcome .start).2.Quiet →
    (∀ es, ((compileEntries scope rs).outcome .start).1 = .ok es →
      ∃ es', ((compileEntries scope rs').outcome .start).1 = .ok es' ∧ es'.Perm es) ∧
    ∀ e, ((compileEntries scope rs).outcome .start).1 = .error e →
      ∃ e', ((compileEntries scope rs').outcome .start).1 = .error e') ∧
  ∀ es es', ((compileEntries scope rs).outcome .start).1 = .ok es →
    ((compileEntries scope rs').outcome .start).1 = .ok es' →
    (es.map Entry.registration = rs ∧ es'.map Entry.registration = rs') ∧
    (es.filter (Uncut scope ·.registration)).Perm (es'.filter (Uncut scope ·.registration))
  := by
  refine ⟨run_perm_of_quiet h, ?_⟩
  intro es es' hes hes'
  refine ⟨⟨map_registration_of_run hes, map_registration_of_run hes'⟩, ?_⟩
  apply List.rel_perm_imp (rightUnique_settles scope) (forall₂_settles_of_run hes)
    (forall₂_settles_of_run hes')
  apply h.filter

end Order

/-! ### Two orders -/

/-- The entry of a function that has an input only. -/
def inputEntry (name : String) (number : Int) (input : TypeDesc) : Entry TypeDesc :=
  ⟨.function, name, number, input, .nodata (some 1), input.size, 1⟩

/-- A header in which the structs of two entries contain each other, but not that of a third. -/
def mutualHeader : Text :=
  "struct A_input \x7b B_input b; \x7d; struct B_input \x7b A_input a; uint8 c; \x7d;\n".toList ++
    "struct C_input \x7b uint64 d; \x7d;\nREGISTER_USER_FUNCTION(A, 1);\n".toList ++
    "REGISTER_USER_FUNCTION(B, 2);\nREGISTER_USER_FUNCTION(C, 3);".toList

def mutualScope : Scope := ⟨stripComments mutualHeader, [], []⟩

def mutualRegistrations : List Registration :=
  [⟨.function, "A", 1⟩, ⟨.function, "B", 2⟩, ⟨.function, "C", 3⟩]

/-- The entries in the order in which they are registered: the second struct is cut within the
first one, and stays so. -/
def mutualEntries : List (Entry TypeDesc) :=
  let b : TypeDesc := .struct [("a", .placeholder), ("c", .u8)]
  [inputEntry "A" 1 (.struct [("b", b)]), inputEntry "B" 2 b,
    inputEntry "C" 3 (.struct [("d", .u64)])]

/-- The entries in the reverse order: it is the first struct that is cut. -/
def mutualEntriesReversed : List (Entry TypeDesc) :=
  let a : TypeDesc := .struct [("b", .placeholder)]
  [inputEntry "C" 3 (.struct [("d", .u64)]), inputEntry "B" 2 (.struct [("a", a), ("c", .u8)]),
    inputEntry "A" 1 a]

theorem run_mutual :
  ((compileEntries mutualScope mutualRegistrations).outcome .start).1 = .ok mutualEntries
  := by decide +kernel

theorem run_mutual_reverse :
  ((compileEntries mutualScope mutualRegistrations.reverse).outcome .start).1 =
    .ok mutualEntriesReversed
  := by decide +kernel

/-- The order of the registrations can make a difference to entries whose structs contain
themselves, even to their sizes. -/
theorem compileEntries_mutual :
  outline [] mutualHeader = .ok ⟨mutualScope, mutualRegistrations⟩ ∧
    mutualRegistrations.Perm mutualRegistrations.reverse ∧
    ((compileEntries mutualScope mutualRegistrations).outcome .start).1 = .ok mutualEntries ∧
    ((compileEntries mutualScope mutualRegistrations.reverse).outcome .start).1 =
      .ok mutualEntriesReversed ∧
    ¬mutualEntriesReversed.Perm mutualEntries
  := by
  refine ⟨rfl, (List.reverse_perm _).symm, run_mutual, run_mutual_reverse, ?_⟩
  decide +kernel

/-- Two entries that share a struct, in both orders, and the entry that the other two of its header
do not affect. -/
theorem compileEntries_perm_shared :
  let scope : Scope := ⟨"struct A_input \x7b P p; \x7d; struct P \x7b uint64 a; \x7d;".toList ++
    "struct B_input \x7b P p, q; \x7d;".toList, [], []⟩
  let rs : List Registration := [⟨.function, "A", 1⟩, ⟨.function, "B", 2⟩]
  (rs.Perm rs.reverse ∧ ((compileEntries scope rs).outcome .start).2.Quiet ∧
    ∃ es es', ((compileEntries scope rs).outcome .start).1 = .ok es ∧
      ((compileEntries scope rs.reverse).outcome .start).1 = .ok es' ∧ es'.Perm es) ∧
  Uncut mutualScope ⟨.function, "C", 3⟩ ∧
    (mutualEntries.filter (Uncut mutualScope ·.registration)).Perm
      (mutualEntriesReversed.filter (Uncut mutualScope ·.registration))
  := by
  intro scope rs
  constructor
  · have hperm : rs.Perm rs.reverse := (List.reverse_perm rs).symm
    obtain ⟨hquiet, hok⟩ : ((compileEntries scope rs).outcome .start).2.Quiet ∧
        ((compileEntries scope rs).outcome .start).1.isOk = true := by decide +kernel
    obtain ⟨es, hes⟩ := exists_of_isOk hok
    obtain ⟨es', hes', hsame⟩ := ((compileEntries_perm scope hperm).1 hquiet).1 es hes
    exact ⟨hperm, hquiet, es, es', hes, hes', hsame⟩
  · have huncut : Uncut mutualScope ⟨.function, "C", 3⟩ := by decide +kernel
    exact ⟨huncut, ((compileEntries_perm mutualScope (List.reverse_perm _).symm).2 _ _ run_mutual
      run_mutual_reverse).2⟩

end Header

end ContractInterface
