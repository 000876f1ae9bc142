import ContractInterface.Proofs.Resolution.Reach
import ContractInterface.Proofs.Resolution.Termination

/-!
# The memo is transparent

What a resolver has been asked before makes no difference to its answers, as long as it cuts no
reference.  The plain resolution stands between such an answer and the one of a resolver at its
start: the former is what the plain resolution gives eventually (`Follows`), and what the plain
resolution gives is what a resolver without marks answers (`Reaches`).

Whether references are cut or not, what has been resolved under a name stays.
-/

namespace ContractInterface.Header

open Resolution

/-! ### Calls of a resolver -/

/-- What a resolver can be asked for: a declared type, the struct under a name, or the struct with
a given body. -/
inductive Call where
  | type (declared : Text)
  | struct (name : String)
  | fields (body : Text)

namespace Call

/-- The answer of a resolver to a call. -/
def answer (scope : Scope) : Call → Resolution (Option TypeDesc)
  | type declared => do return some (← scope.resolve declared)
  | struct name => scope.resolveStruct name
  | fields body => do return some (← scope.resolveFields body)

/-- The answer to a call, given the resolution of types. -/
def answerWith (scope : Scope) (resolve : Text → Resolution TypeDesc) :
    Call → Resolution (Option TypeDesc)
  | type declared => do return some (← resolve declared)
  | struct name => resolveStructWith scope resolve name
  | fields body => do return some (← resolveBody scope resolve body)

/-- The plain answer to a call, given the plain resolution of types. -/
def plainWith (scope : Scope) (resolve : Text → Resolution TypeDesc) :
    Call → Resolution (Option TypeDesc)
  | type declared => do return some (← resolve declared)
  | struct name => plainStructWith scope resolve name
  | fields body => do return some (← resolveBody scope resolve body)

variable (scope : Scope) (call : Call) (s : ResolverState)

theorem outcome_answer :
  (call.answer scope).outcome s = (call.answerWith scope scope.resolve).outcome s
  := by
  cases call with
  | type declared => rfl
  | struct name => apply scope.outcome_resolveStruct
  | fields body =>
      change (_ >>= _ : Resolution _).outcome s = (_ >>= _ : Resolution _).outcome s
      rw [outcome_bind, outcome_bind, scope.outcome_resolveFields]

/-- Every call is answered. -/
theorem done_answer :
  ((call.answer scope).outcome s).1 ≠ .error .tooDeep
  := by
  have hsome {x : Resolution TypeDesc} (h : (x.outcome s).1 ≠ .error .tooDeep) :
      ((do return some (← x)).outcome s).1 ≠ .error .tooDeep := by
    rcases hs : x.outcome s with ⟨e | type, s'⟩
    · rw [outcome_bind_error hs]
      rw [hs] at h
      simpa using h
    · rw [outcome_bind_ok hs]
      simp
  cases call with
  | type declared => apply hsome (scope.done_resolve s declared)
  | struct name => apply scope.done_resolveStruct
  | fields body => apply hsome (scope.done_resolveFields s body)

/-- An answer that is not too deep for some depth is the answer without a depth. -/
theorem agrees_answerWith (depth : Nat) :
  AgreesIfDone s (call.answerWith scope (resolveWithin scope depth))
    (call.answerWith scope scope.resolve)
  := by
  have hdeepens := scope.deepens_resolve depth
  cases call with
  | type declared => apply AgreesIfDone.bind (hdeepens s declared) fun _ _ => .refl _
  | struct name => apply agrees_resolveStructWith hdeepens
  | fields body => apply AgreesIfDone.bind (agrees_resolveBody hdeepens body) fun _ _ => .refl _

theorem follows_answerWith :
  Follows scope (call.answerWith scope scope.resolve)
    fun depth => call.plainWith scope (plainWithin scope depth)
  := by
  have h type := follows_resolveWithin scope (scope.depth type.length) type
  cases call with
  | type declared => apply (h declared).bind fun _ => (following scope).rel_pure _
  | struct name => apply follows_resolveStructWith h
  | fields body => apply (follows_resolveBody h body).bind fun _ => (following scope).rel_pure _

theorem reaches_answerWith (depth : Nat) :
  Reaches scope (depth + 1) (call.answerWith scope (resolveWithin scope depth))
    (call.plainWith scope (plainWithin scope depth))
  := by
  have h := (reaches_within scope depth).1
  cases call with
  | type declared => apply (h declared).mono.bind fun _ => (reaching scope (depth + 1)).rel_pure _
  | struct name => apply (reaches_within scope (depth + 1)).2
  | fields body =>
      apply (reaches_resolveBody h body).mono.bind fun _ => (reaching scope (depth + 1)).rel_pure _

theorem advancing_answer :
  Advancing (call.answer scope)
  := by
  intro s
  rw [outcome_answer]
  apply (call.follows_answerWith scope).advances

/-- An answer for which nothing was cut is the one of a resolver at its start. -/
theorem answer_eq_start {scope : Scope} {call : Call} {s : ResolverState}
    (hfaithful : scope.Faithful s) (hquiet : ((call.answer scope).outcome s).2.Quiet) :
  scope.Faithful ((call.answer scope).outcome s).2 ∧
  ((call.answer scope).outcome s).1 = ((call.answer scope).outcome .start).1
  := by
  have hdone := call.done_answer scope s
  simp only [outcome_answer] at hquiet hdone ⊢
  rcases hs : (call.answerWith scope scope.resolve).outcome s with ⟨r, s'⟩
  rw [hs] at hquiet hdone
  obtain ⟨hfaithful', least, hplain⟩ :=
    (call.follows_answerWith scope).follows hs hfaithful hquiet hdone
  use hfaithful'
  -- within the depth `least` the resolver at its start reaches what the plain resolution gives
  obtain ⟨hstart, -⟩ := (call.reaches_answerWith scope least).reaches
    (hplain least (Nat.le_refl least)) hdone .start .start
  rw [call.agrees_answerWith scope .start least (by rw [hstart]; apply hdone), hstart]

end Call

/-! ### Sequences of calls -/

/-- The answers of a resolver to a sequence of calls, and the state that it is left in. -/
def Scope.answers (scope : Scope) :
    List Call → ResolverState → List (Except ResolveError (Option TypeDesc)) × ResolverState
  | [], s => ([], s)
  | call :: calls, s =>
    let (result, s') := (call.answer scope).outcome s
    let (results, s'') := scope.answers calls s'
    (result :: results, s'')

namespace Scope

theorem advances_answers (scope : Scope) (calls : List Call) (s : ResolverState) :
  s.Advances (scope.answers calls s).2
  := by
  induction calls generalizing s with
  | nil => apply ResolverState.Advances.refl
  | cons call calls ih => apply (call.advancing_answer scope s).trans (ih _)

/-- The answers for which nothing was cut are those of resolvers at their start. -/
theorem answers_eq_start {scope : Scope} {calls : List Call} {s : ResolverState}
    (hfaithful : scope.Faithful s) (hquiet : (scope.answers calls s).2.Quiet) :
  (scope.answers calls s).1 = calls.map fun call => ((call.answer scope).outcome .start).1
  := by
  induction calls generalizing s with
  | nil => rfl
  | cons call calls ih =>
      obtain ⟨hfaithful', hstart⟩ :=
        Call.answer_eq_start hfaithful (hquiet.of_advances (scope.advances_answers calls _))
      rw [List.map_cons, ← hstart, ← ih hfaithful' hquiet]
      rfl

/-- What a resolver was asked before makes no difference to its answers if it cut no reference.
In any case, a struct that has been resolved stays as it is, and is given without a warning. -/
theorem answers_transparent (scope : Scope) :
  (∀ calls : List Call, (scope.answers calls .start).2.Quiet →
    (scope.answers calls .start).1 = calls.map fun call => ((call.answer scope).outcome .start).1) ∧
  ∀ (s : ResolverState) (calls : List Call) (name : String) (type : TypeDesc),
    s.memo.entries.get? name = some type →
    (scope.answers calls s).2.memo.entries.get? name = some type ∧
    ((scope.resolveStruct name).outcome (scope.answers calls s).2).1 = .ok (some type) ∧
    ((scope.resolveStruct name).outcome (scope.answers calls s).2).2.warnings =
      (scope.answers calls s).2.warnings
  := by
  refine ⟨fun calls => answers_eq_start .start, ?_⟩
  intro s calls name type hget
  have hget' := (scope.advances_answers calls s).entries hget
  use hget'
  rw [Scope.resolveStruct, outcome_resolveStructWith_known scope _ hget']
  exact ⟨rfl, rfl⟩

/-- Two structs that share a third, one of them also under an alias. -/
theorem answers_transparent_shared :
  let scope : Scope :=
    ⟨"struct P { uint64 a; Missing b; }; struct Q { P p; Array<P, 2> q; R r; };".toList, [],
      [("R", "P".toList), ("S", "Q".toList)]⟩
  let calls : List Call := [.struct "Q", .type "S".toList, .struct "P", .fields "S s; P p;".toList,
    .struct "T", .type "R".toList]
  let p : TypeDesc := .struct [("a", .u64), ("b", .placeholder)]
  let q : TypeDesc := .struct [("p", p), ("q", .array 2 p), ("r", p)]
  let s := (scope.answers calls .start).2
  (s.Quiet ∧
    (scope.answers calls .start).1 =
      calls.map fun call => ((call.answer scope).outcome .start).1) ∧
  s.memo.entries.get? "Q" = some q ∧
  (scope.answers calls s).2.memo.entries.get? "Q" = some q ∧
  ((scope.resolveStruct "Q").outcome (scope.answers calls s).2).1 = .ok (some q) ∧
  ((scope.resolveStruct "Q").outcome (scope.answers calls s).2).2.warnings =
    (scope.answers calls s).2.warnings
  := by
  intro scope calls p q s
  obtain ⟨hquiet, hget⟩ : s.Quiet ∧ s.memo.entries.get? "Q" = some q := by decide +kernel
  exact ⟨⟨hquiet, (answers_transparent scope).1 calls hquiet⟩, hget,
    (answers_transparent scope).2 s calls "Q" q hget⟩

end Scope

end ContractInterface.Header
