import ContractInterface.Proofs.Resolution.Depth
import ContractInterface.Proofs.Resolution.Frame
import Mathlib.Data.Finset.Card
import Mathlib.Data.Finset.SDiff
import Mathlib.Data.List.Infix
import Mathlib.Tactic.Ring

/-!
# Resolutions end

Along a chain of references, an alias is expanded and a struct is resolved only while its name is
not marked, and then it gets marked.  There are finitely many names to mark: those of the alias
table, and the pieces of the source.  Between two marks the chain runs through the items of array
templates, each of which is shorter than the one before it.  So the number of unmarked names
and the length of the text bound the length of the chain, and `Scope.depth` is never exceeded.

Hence `Scope.resolve`, from which the depth has vanished, satisfies the equation of its step.
-/

namespace ContractInterface

/-! ### Pieces of a text -/

namespace Text

/-- The pieces of a text. -/
def pieces (t : Text) : List Text :=
  t.tails.flatMap List.inits

theorem mem_pieces {s t : Text} (h : s <:+: t) :
  s ∈ pieces t
  := by
  obtain ⟨u, hs, hu⟩ := List.infix_iff_prefix_suffix.mp h
  apply List.mem_flatMap.mpr
  use u, (List.mem_tails u t).mpr hu
  apply (List.mem_inits s u).mpr hs

theorem length_pieces_le (t : Text) :
  (pieces t).length ≤ (t.length + 1) * (t.length + 1)
  := by
  induction t with
  | nil => decide
  | cons c t ih =>
      have hlength : (pieces (c :: t)).length = t.length + 2 + (pieces t).length := by
        rw [pieces, List.tails_cons, List.flatMap_cons, List.length_append, List.length_inits]
        rfl
      rw [hlength, List.length_cons]
      calc
        t.length + 2 + (pieces t).length
          ≤ t.length + 2 + (t.length + 1) * (t.length + 1) := by omega
        _ ≤ (t.length + 1) * (t.length + 1) + (2 * t.length + 3) := by omega
        _ = (t.length + 1 + 1) * (t.length + 1 + 1) := by ring

end Text

namespace Assignments

variable {κ α : Type} [DecidableEq κ]

theorem mem_of_get? {table : Assignments κ α} {name : κ} {value : α}
    (h : table.get? name = some value) :
  (name, value) ∈ table
  := by
  induction table with
  | nil => contradiction
  | cons entry table ih =>
      rw [get?] at h
      split at h
      · rename_i hname
        obtain rfl := Option.some.inj h
        rw [← hname]
        apply List.mem_cons_self
      · apply List.mem_cons_of_mem entry (ih h)

end Assignments

namespace Header

open Resolution

/-! ### Texts of a scope -/

section Texts

variable {scope : Scope}

theorem le_foldl_max {α : Type} {f : α → Nat} {l : List α} {m n : Nat}
    (h : m ≤ n ∨ ∃ a ∈ l, m ≤ f a) :
  m ≤ l.foldl (fun k a => max k (f a)) n
  := by
  induction l generalizing n with
  | nil => simpa using h
  | cons a l ih =>
      apply ih
      rcases h with h | ⟨b, hb, h⟩
      · left
        apply Nat.le_trans h (Nat.le_max_left n (f a))
      · rcases List.mem_cons.mp hb with rfl | hb
        · left
          apply Nat.le_trans h (Nat.le_max_right n (f b))
        · right
          use b

theorem Scope.length_source_le (scope : Scope) :
  scope.source.length ≤ scope.longest
  := by
  apply le_foldl_max
  left
  rfl

/-- An alias that a declared type is stands in the table, and its target is among the texts of
the scope. -/
theorem Scope.of_aliasOf? {declared target : Text} (h : scope.aliasOf? declared = some target) :
  String.ofList (typeName declared) ∈ scope.aliases.names ∧ target.length ≤ scope.longest
  := by
  have hget := (Option.filter_eq_some_iff.mp h).1
  have hmem := Assignments.mem_of_get? hget
  constructor
  · apply List.mem_map_of_mem hmem
  · apply le_foldl_max
    right
    exact ⟨_, hmem, Nat.le_refl _⟩

end Texts

/-! ### Unmarked names -/

/-- The number of names that a resolution can still mark. -/
def Scope.unmarked (scope : Scope) (s : ResolverState) : Nat :=
  (scope.aliases.names.toFinset \ s.expanding.toFinset).card +
    ((Text.pieces scope.source).toFinset \ (s.memo.inProgress.map String.toList).toFinset).card

section Unmarked

variable {scope : Scope} {s s' : ResolverState} {name : String}

theorem Scope.unmarked_le (scope : Scope) (s : ResolverState) :
  scope.unmarked s ≤ scope.aliases.length + (scope.source.length + 1) * (scope.source.length + 1)
  := by
  apply Nat.add_le_add
  · calc
      (scope.aliases.names.toFinset \ s.expanding.toFinset).card
        ≤ scope.aliases.names.toFinset.card := Finset.card_le_card Finset.sdiff_subset
      _ ≤ scope.aliases.names.length := List.toFinset_card_le _
      _ = scope.aliases.length := List.length_map _
  · calc
      ((Text.pieces scope.source).toFinset \ (s.memo.inProgress.map String.toList).toFinset).card
        ≤ (Text.pieces scope.source).toFinset.card := Finset.card_le_card Finset.sdiff_subset
      _ ≤ (Text.pieces scope.source).length := List.toFinset_card_le _
      _ ≤ (scope.source.length + 1) * (scope.source.length + 1) := Text.length_pieces_le _

/-- What a resolution leaves has the same names marked. -/
theorem ResolverState.Advances.unmarked_eq (h : s.Advances s') :
  scope.unmarked s' = scope.unmarked s
  := by
  rw [Scope.unmarked, h.expanding, h.inProgress, Scope.unmarked]

theorem Scope.unmarked_expanding_lt (h : name ∈ scope.aliases.names)
    (hmark : name ∉ s.expanding) :
  scope.unmarked { s with expanding := name :: s.expanding } < scope.unmarked s
  := by
  apply Nat.add_lt_add_right
  rw [List.toFinset_cons, Finset.sdiff_insert]
  apply Finset.card_erase_lt_of_mem
  simp [h, hmark]

theorem Scope.unmarked_enter_lt {body : Text}
    (hbody : structBody? scope.source name.toList = some body)
    (hmark : name ∉ s.memo.inProgress) :
  scope.unmarked (s.enter name) < scope.unmarked s
  := by
  have hpiece := Text.mem_pieces (infix_of_structBody? hbody).1
  have hmark : name.toList ∉ s.memo.inProgress.map String.toList := by
    intro hmem
    obtain ⟨other, hother, heq⟩ := List.mem_map.mp hmem
    rw [String.toList_inj.mp heq] at hother
    contradiction
  apply Nat.add_lt_add_left
  rw [ResolverState.enter, List.map_cons, List.toFinset_cons, Finset.sdiff_insert]
  apply Finset.card_erase_lt_of_mem
  apply Finset.mem_sdiff.mpr
  simpa using ⟨hpiece, by simpa using hmark⟩

end Unmarked

/-! ### Resolutions that end -/

/-- From every state with at most a number of unmarked names, a resolution is not too deep. -/
structure EndsFrom {α : Type} (scope : Scope) (n : Nat) (x : Resolution α) : Prop where
  advances : Advancing x
  done : ∀ s, scope.unmarked s ≤ n → (x.outcome s).1 ≠ .error .tooDeep

namespace EndsFrom

variable {α β : Type} {scope : Scope} {n : Nat}

theorem pure (a : α) : EndsFrom scope n (pure a)
  where
  advances := advancing.rel_pure a
  done := by simp

theorem ofNumeral (x : Except Numeral.Error α) : EndsFrom scope n (ofNumeral x)
  where
  advances := advancing.rel_ofNumeral x
  done := by cases x <;> simp

theorem warn (message : String) : EndsFrom scope n (warn message)
  where
  advances := advancing.rel_warn message
  done := by simp

theorem bind {x : Resolution α} {f : α → Resolution β} (hx : EndsFrom scope n x)
    (hf : ∀ a, EndsFrom scope n (f a)) :
  EndsFrom scope n (x >>= f)
  where
  advances := hx.advances.bind fun a => (hf a).advances
  done := by
    intro s hs
    have hadvances := hx.advances s
    have hdone := hx.done s hs
    rcases h : x.outcome s with ⟨e | a, s'⟩
    · rw [h] at hdone
      rw [outcome_bind_error h]
      simpa using hdone
    · rw [h] at hadvances
      rw [outcome_bind_ok h]
      apply (hf a).done
      rw [hadvances.unmarked_eq]
      apply hs

end EndsFrom

/-- Composition respects that resolutions end. -/
def ending (scope : Scope) (n : Nat) : Correspondence Unit where
  rel x _ := EndsFrom scope n x
  rel_pure := .pure
  rel_ofNumeral := .ofNumeral
  rel_warn := .warn
  rel_bind := .bind

section Step

variable {scope : Scope} {resolve : Text → Resolution TypeDesc} {n bound : Nat}

theorem endsFrom_resolveBody {body : Text}
    (h : ∀ type : Text, type.length ≤ body.length → EndsFrom scope n (resolve type)) :
  EndsFrom scope n (resolveBody scope resolve body)
  := by
  change (ending scope n).rel _ fun _ => resolveBody scope resolve body
  apply (ending scope n).rel_resolveBody
  apply h

/-- The body of a struct is resolved with fewer unmarked names. -/
theorem endsFrom_resolveStructWith (hadvancing : ∀ type, Advancing (resolve type))
    (hlongest : scope.longest ≤ bound)
    (h : ∀ m < n, ∀ type : Text, type.length ≤ bound → EndsFrom scope m (resolve type))
    (name : String) :
  EndsFrom scope n (resolveStructWith scope resolve name)
  where
  advances := advancing_resolveStructWith hadvancing scope name
  done := by
    intro s hs
    have hcourse := structCourse scope resolve s name
    generalize (resolveStructWith scope resolve name).outcome s = o at hcourse ⊢
    cases hcourse with
    | known hget => simp
    | absent hget hbody => simp
    | marked body hget hbody hmark => simp
    | resolved body type s' hget hbody hmark hresolve => simp
    | stopped body e s' hget hbody hmark hresolve =>
        have hlt := Scope.unmarked_enter_lt hbody hmark
        have hends : EndsFrom scope (scope.unmarked (s.enter name))
            (resolveBody scope resolve body) := by
          apply endsFrom_resolveBody
          intro type htype
          apply h _ (Nat.lt_of_lt_of_le hlt hs)
          have hlength := (infix_of_structBody? hbody).2.length_le
          have hsource := scope.length_source_le
          omega
        have hdone := hends.done (s.enter name) (Nat.le_refl _)
        rw [hresolve] at hdone
        simpa using hdone

/-- The target of an alias is resolved with fewer unmarked names. -/
theorem endsFrom_resolveAliasWith (hadvancing : ∀ type, Advancing (resolve type))
    (hlongest : scope.longest ≤ bound)
    (h : ∀ m < n, ∀ type : Text, type.length ≤ bound → EndsFrom scope m (resolve type))
    {declared target : Text} (htarget : scope.aliasOf? declared = some target) :
  EndsFrom scope n (resolveAliasWith resolve (String.ofList (typeName declared)) target)
  where
  advances := advancing_resolveAliasWith hadvancing _ target
  done := by
    obtain ⟨hname, hlength⟩ := Scope.of_aliasOf? htarget
    generalize String.ofList (typeName declared) = name at hname ⊢
    intro s hs
    have hcourse := aliasCourse resolve s name target
    generalize (resolveAliasWith resolve name target).outcome s = o at hcourse ⊢
    cases hcourse with
    | marked hmark => simp
    | expanded r s' hmark hresolve =>
        have hlt := Scope.unmarked_expanding_lt hname hmark
        have hends := h _ (Nat.lt_of_lt_of_le hlt hs) target (Nat.le_trans hlength hlongest)
        have hdone := hends.done { s with expanding := name :: s.expanding } (Nat.le_refl _)
        rw [hresolve] at hdone
        apply hdone

/-- One step of a resolution ends if the resolutions of shorter texts end, and all resolutions
with fewer unmarked names. -/
theorem endsFrom_resolveStep (hadvancing : ∀ type, Advancing (resolve type))
    (hlongest : scope.longest ≤ bound) {declared : Text}
    (hitem : ∀ type : Text, type.length < declared.length → EndsFrom scope n (resolve type))
    (h : ∀ m < n, ∀ type : Text, type.length ≤ bound → EndsFrom scope m (resolve type)) :
  EndsFrom scope n (resolveStep scope resolve declared)
  := by
  rcases hname : CatalogType.ofName? (typeName declared) with _ | known
  · rcases halias : scope.aliasOf? declared with _ | target
    · rw [resolveStep_struct resolve hname halias]
      apply (endsFrom_resolveStructWith hadvancing hlongest h _).bind
      intro found
      cases found with
      | none => apply (ending scope n).rel_giveUp
      | some type => apply EndsFrom.pure
    · rw [resolveStep_alias resolve hname halias]
      apply endsFrom_resolveAliasWith hadvancing hlongest h halias
  · rw [resolveStep_catalog resolve hname]
    change (ending scope n).rel _ fun _ => resolveCatalog scope resolve known
    apply (ending scope n).rel_resolveCatalog
    rintro item length rfl
    apply hitem
    have hargument := CatalogType.infix_of_ofName? hname (List.mem_cons_self (a := item))
    apply Nat.lt_of_lt_of_le hargument.2 (remnant_typeName declared).length_le

end Step

/-- The depth that suffices for a number of unmarked names and a text, if no text is longer than
a bound: a reference either marks a name, or leads to a shorter text. -/
theorem endsFrom_resolveWithin {scope : Scope} {bound : Nat} (hlongest : scope.longest ≤ bound)
    {depth n : Nat} {declared : Text} (hlength : declared.length ≤ bound)
    (hdepth : n * (bound + 2) + declared.length < depth) :
  EndsFrom scope n (resolveWithin scope depth declared)
  := by
  induction depth generalizing n declared with
  | zero => omega
  | succ depth ih =>
      apply endsFrom_resolveStep (advancing_resolveWithin scope depth) hlongest
      · intro type htype
        apply ih
        · omega
        · omega
      · intro m hm type htype
        apply ih htype
        have hmul : (m + 1) * (bound + 2) ≤ n * (bound + 2) :=
          Nat.mul_le_mul_right (bound + 2) hm
        rw [Nat.succ_mul] at hmul
        omega

/-! ### Results of resolutions -/

/-- What a resolution ends with: a result, or a numeral that is too long. -/
def Concludes {α : Type} (r : Except ResolveError α) : Prop :=
  (∃ a, r = .ok a) ∨ ∃ cause, r = .error (.numeral cause)

theorem concludes_iff {α : Type} (r : Except ResolveError α) :
  Concludes r ↔ r ≠ .error .tooDeep
  := by
  rcases r with (cause | _) | a
  · simp [Concludes]
  · simp [Concludes]
  · simp [Concludes]

section Depth

variable (scope : Scope) (s : ResolverState)

/-- The depth for a length suffices for every text that is not longer, and for those of the
scope. -/
theorem Scope.done_resolveWithin {length : Nat} {declared : Text}
    (h : declared.length ≤ max scope.longest length) :
  EndsFrom scope (scope.unmarked s) (resolveWithin scope (scope.depth length) declared)
  := by
  apply endsFrom_resolveWithin (Nat.le_max_left scope.longest length) h
  have hunmarked := Nat.mul_le_mul_right (max scope.longest length + 2) (scope.unmarked_le s)
  rw [Scope.depth, Nat.succ_mul]
  omega

theorem Scope.done_resolve (declared : Text) :
  ((scope.resolve declared).outcome s).1 ≠ .error .tooDeep
  := by
  apply (scope.done_resolveWithin s _).done s (Nat.le_refl _)
  apply Nat.le_max_right

theorem Scope.done_resolveStruct (name : String) :
  ((scope.resolveStruct name).outcome s).1 ≠ .error .tooDeep
  := by
  have hends : EndsFrom scope (scope.unmarked s) (scope.resolveStruct name) := by
    apply endsFrom_resolveStructWith (advancing_resolveWithin scope _) (Nat.le_refl _)
    intro m hm type htype
    constructor
    · apply advancing_resolveWithin
    · intro s' hs'
      apply (scope.done_resolveWithin s' _).done s' (Nat.le_refl _)
      apply Nat.le_trans htype (Nat.le_max_left _ _)
  apply hends.done s (Nat.le_refl _)

theorem Scope.done_resolveFields (body : Text) :
  ((scope.resolveFields body).outcome s).1 ≠ .error .tooDeep
  := by
  have hends : EndsFrom scope (scope.unmarked s) (scope.resolveFields body) := by
    apply endsFrom_resolveBody
    intro type htype
    apply scope.done_resolveWithin
    apply Nat.le_trans htype (Nat.le_max_right _ _)
  apply hends.done s (Nat.le_refl _)

/-- A resolution that is not too deep for some depth gives what the resolution without a depth
gives. -/
theorem Scope.deepens_resolve (depth : Nat) :
  Deepens (resolveWithin scope depth) scope.resolve
  := by
  intro s declared hdone
  -- both agree with the resolution to the greater of the two depths
  have hle := Nat.le_max_left depth (scope.depth declared.length)
  have hle' := Nat.le_max_right depth (scope.depth declared.length)
  have hdepth := deepens_resolveWithin scope hle s declared hdone
  have hresolve := deepens_resolveWithin scope hle' s declared (scope.done_resolve s declared)
  rw [Scope.resolve, ← hresolve, hdepth]

/-! ### The equations without a depth -/

theorem Scope.outcome_resolve (declared : Text) :
  (scope.resolve declared).outcome s = (resolveStep scope scope.resolve declared).outcome s
  := by
  have hdone := scope.done_resolve s declared
  obtain ⟨depth, hdepth⟩ : ∃ depth, scope.depth declared.length = depth + 1 := by
    apply Nat.exists_eq_succ_of_ne_zero
    apply Nat.mul_ne_zero
    · omega
    · omega
  rw [Scope.resolve, hdepth] at hdone ⊢
  symm
  apply (scope.deepens_resolve depth).step s declared hdone

theorem Scope.outcome_resolveStruct (name : String) :
  (scope.resolveStruct name).outcome s = (resolveStructWith scope scope.resolve name).outcome s
  := by
  symm
  apply agrees_resolveStructWith (scope.deepens_resolve _) name (scope.done_resolveStruct s name)

theorem Scope.outcome_resolveFields (body : Text) :
  (scope.resolveFields body).outcome s = (resolveBody scope scope.resolve body).outcome s
  := by
  symm
  apply agrees_resolveBody (scope.deepens_resolve _) body (scope.done_resolveFields s body)

/-- Every resolution ends, from every state, with a result or because of a numeral.  What it ends
with is what the step without any bound gives, and does not change when more references may be
followed. -/
theorem Scope.resolutions_conclude :
  (∀ declared : Text,
    Concludes ((scope.resolve declared).outcome s).1 ∧
    (scope.resolve declared).outcome s = (resolveStep scope scope.resolve declared).outcome s ∧
    ∀ more : Nat,
      (resolveWithin scope (scope.depth declared.length + more) declared).outcome s =
        (scope.resolve declared).outcome s) ∧
  (∀ name : String,
    Concludes ((scope.resolveStruct name).outcome s).1 ∧
    (scope.resolveStruct name).outcome s =
      (resolveStructWith scope scope.resolve name).outcome s ∧
    ∀ more : Nat,
      (resolveStructWith scope (resolveWithin scope (scope.depth 0 + more)) name).outcome s =
        (scope.resolveStruct name).outcome s) ∧
  ∀ body : Text,
    Concludes ((scope.resolveFields body).outcome s).1 ∧
    (scope.resolveFields body).outcome s = (resolveBody scope scope.resolve body).outcome s ∧
    ∀ more : Nat,
      (resolveBody scope (resolveWithin scope (scope.depth body.length + more)) body).outcome s =
        (scope.resolveFields body).outcome s
  := by
  refine ⟨?_, ?_, ?_⟩
  · intro declared
    have hdone := scope.done_resolve s declared
    refine ⟨(concludes_iff _).mpr hdone, scope.outcome_resolve s declared, ?_⟩
    intro more
    apply deepens_resolveWithin scope (Nat.le_add_right _ more) s declared hdone
  · intro name
    have hdone := scope.done_resolveStruct s name
    refine ⟨(concludes_iff _).mpr hdone, scope.outcome_resolveStruct s name, ?_⟩
    intro more
    apply agrees_resolveStructWith (deepens_resolveWithin scope (Nat.le_add_right _ more))
      name hdone
  · intro body
    have hdone := scope.done_resolveFields s body
    refine ⟨(concludes_iff _).mpr hdone, scope.outcome_resolveFields s body, ?_⟩
    intro more
    apply agrees_resolveBody (deepens_resolveWithin scope (Nat.le_add_right _ more)) body hdone

end Depth

end Header

end ContractInterface
