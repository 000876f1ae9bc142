import ContractInterface.Expr.Postfix
import ContractInterface.Proofs.Except
import ContractInterface.Proofs.Expr.Grammar
import Mathlib.Data.List.TakeWhile

/-!
# The values of expressions

Converting an expression leaves steps and waiting operators that together push its value
(`Converts`), so every expression has the value of its tree.  The other way round, the conversion
does not look at the order of operands and operators.  It keeps account of the parentheses that
are open, and the stack keeps account of the operands that are missing: whatever has a value has
matching parentheses and one operand more than operators.  That is an expression as long as no
operand follows another one directly.
-/

namespace ContractInterface.Expr

variable {known : Table Int} {tokens : List Token}

/-! ### Waiting operators -/

namespace Waiting

theorem isOp_of_yieldsTo {precedence : Nat} {x : Waiting} (h : x.yieldsTo precedence) : x.isOp
  := by
  cases x with
  | op o => rfl
  | paren => contradiction

theorem yieldsTo_of_succ {precedence : Nat} {x : Waiting} (h : x.yieldsTo (precedence + 1)) :
  x.yieldsTo precedence
  := by
  cases x with
  | op o =>
      simp only [yieldsTo, decide_eq_true_eq] at h ⊢
      omega
  | paren => contradiction

end Waiting

/-- The topmost operators of a class are released, from the topmost one on. -/
theorem Yard.release_append {p : Waiting → Bool} {pending waiting : List Waiting}
    (hpending : ∀ x ∈ pending, p x) (hwaiting : ∀ x ∈ waiting.head?, p x = false)
    (output : List Step) :
  Yard.release p ⟨output, pending ++ waiting⟩ =
    ⟨(pending.filterMap Waiting.step?).reverse ++ output, waiting⟩
  := by
  have hstop : waiting.takeWhile p = [] ∧ waiting.dropWhile p = waiting := by
    cases waiting with
    | nil => exact ⟨rfl, rfl⟩
    | cons x waiting =>
        have hx : p x = false := hwaiting x rfl
        simp [hx]
  rw [Yard.release]
  dsimp only
  rw [List.takeWhile_append_of_pos hpending, List.dropWhile_append_of_pos hpending, hstop.1,
    hstop.2, List.append_nil]

/-! ### Expressions are converted -/

/-- Tokens are converted to a value: they leave steps and operators that yield to a precedence,
and these steps, followed by those of the operators, push the value. -/
def Converts (known : Table Int) (precedence : Nat) (tokens : List Token) (v : Int) : Prop :=
  ∀ yard : Yard, (∀ x ∈ yard.waiting.head?, x.yieldsTo precedence = false) →
    ∃ steps pending,
      tokens.foldlM (Yard.take known) yard =
        some ⟨steps ++ yard.output, pending ++ yard.waiting⟩ ∧
      (∀ x ∈ pending, x.yieldsTo precedence) ∧
      ∀ stack, (steps.reverse ++ pending.filterMap Waiting.step?).foldlM Step.run stack =
        some (v :: stack)

namespace Converts

/-- A token that is replaced by its value. -/
theorem operand {token : Token} {v : Int}
    (h : ∀ yard : Yard, yard.take known token = some ⟨.push v :: yard.output, yard.waiting⟩)
    (precedence : Nat) :
  Converts known precedence [token] v
  := by
  intro yard hyard
  refine ⟨[.push v], [], ?_, by simp, fun stack => rfl⟩
  rw [List.foldlM_cons, h]
  rfl

theorem weaken {precedence : Nat} {v : Int} (h : Converts known (precedence + 1) tokens v) :
  Converts known precedence tokens v
  := by
  intro yard hyard
  have hyard' : ∀ x ∈ yard.waiting.head?, x.yieldsTo (precedence + 1) = false := by
    intro x hx
    rw [← Bool.not_eq_true]
    intro hyields
    have hyields' := Waiting.yieldsTo_of_succ hyields
    simp [hyard x hx] at hyields'
  obtain ⟨steps, pending, htake, hpending, hrun⟩ := h yard hyard'
  exact ⟨steps, pending, htake, fun x hx => Waiting.yieldsTo_of_succ (hpending x hx), hrun⟩

/-- The operator releases what the left operand has left waiting, and waits itself until the right
operand is complete. -/
theorem binary (o : Op) {left right : List Token} {a b : Int}
    (hleft : Converts known o.precedence left a)
    (hright : Converts known (o.precedence + 1) right b) :
  Converts known o.precedence (left ++ .op o :: right) (o.apply a b)
  := by
  rintro ⟨output, waiting⟩ hyard
  obtain ⟨steps, pending, htake, hpending, hrun⟩ := hleft ⟨output, waiting⟩ hyard
  have hrelease := Yard.release_append hpending hyard (steps ++ output)
  have hop : ∀ x ∈ (Waiting.op o :: waiting).head?, x.yieldsTo (o.precedence + 1) = false := by
    rintro _ ⟨⟩
    simp [Waiting.yieldsTo]
  obtain ⟨steps', pending', htake', hpending', hrun'⟩ :=
    hright ⟨(pending.filterMap Waiting.step?).reverse ++ (steps ++ output), .op o :: waiting⟩ hop
  refine ⟨steps' ++ (pending.filterMap Waiting.step?).reverse ++ steps, pending' ++ [.op o],
    ?_, ?_, ?_⟩
  · rw [List.foldlM_append, htake, Option.bind_eq_bind, Option.bind_some, List.foldlM_cons,
      Yard.take, hrelease]
    simp only [Option.bind_eq_bind, Option.bind_some, htake', List.append_assoc,
      List.singleton_append]
  · intro x hx
    rcases List.mem_append.mp hx with hx | hx
    · exact Waiting.yieldsTo_of_succ (hpending' x hx)
    · obtain rfl := List.mem_singleton.mp hx
      simp [Waiting.yieldsTo]
  · intro stack
    have hsteps : (steps' ++ (pending.filterMap Waiting.step?).reverse ++ steps).reverse ++
        (pending' ++ [Waiting.op o]).filterMap Waiting.step? =
        (steps.reverse ++ pending.filterMap Waiting.step?) ++
          ((steps'.reverse ++ pending'.filterMap Waiting.step?) ++ [.combine o]) := by
      simp [Waiting.step?]
    rw [hsteps, List.foldlM_append, hrun, Option.bind_eq_bind, Option.bind_some,
      List.foldlM_append, hrun']
    rfl

/-- The closing parenthesis releases everything that waits for it. -/
theorem parens {precedence : Nat} {v : Int} (h : Converts known precedence tokens v)
    (precedence' : Nat) :
  Converts known precedence' (.openParen :: tokens ++ [.closeParen]) v
  := by
  rintro ⟨output, waiting⟩ hyard
  have hparen : ∀ x ∈ (Waiting.paren :: waiting).head?, x.yieldsTo precedence = false := by
    rintro _ ⟨⟩
    rfl
  obtain ⟨steps, pending, htake, hpending, hrun⟩ := h ⟨output, .paren :: waiting⟩ hparen
  have hstop : ∀ x ∈ (Waiting.paren :: waiting).head?, x.isOp = false := by
    rintro _ ⟨⟩
    rfl
  have hrelease := Yard.release_append
    (fun x hx => Waiting.isOp_of_yieldsTo (hpending x hx)) hstop (steps ++ output)
  refine ⟨(pending.filterMap Waiting.step?).reverse ++ steps, [], ?_, by simp, ?_⟩
  · rw [List.cons_append, List.foldlM_cons, Yard.take, Option.bind_eq_bind, Option.bind_some,
      List.foldlM_append, htake, Option.bind_eq_bind, Option.bind_some, List.foldlM_cons,
      Yard.take, hrelease]
    simp
  · intro stack
    simpa using hrun stack

end Converts

/-- How tightly an operator must bind to stand in an expression of some kind. -/
def Level.precedence : Level → Nat
  | .sum => 1
  | .product => 2
  | .factor => 3

/-- Every expression is converted to its value. -/
theorem converts_of_derives {level : Level} {e : Tree} (h : Derives level tokens e) {v : Int}
    (hv : e.value? known = some v) :
  Converts known level.precedence tokens v
  := by
  induction h generalizing v with
  | ofProduct h ih => exact (ih hv).weaken
  | ofFactor h ih => exact (ih hv).weaken
  | plus ha hb iha ihb =>
      obtain ⟨a, b, hleft, hright, rfl⟩ := Tree.value?_binary_eq_some_iff.mp hv
      exact Converts.binary .plus (iha hleft) (ihb hright)
  | minus ha hb iha ihb =>
      obtain ⟨a, b, hleft, hright, rfl⟩ := Tree.value?_binary_eq_some_iff.mp hv
      exact Converts.binary .minus (iha hleft) (ihb hright)
  | times ha hb iha ihb =>
      obtain ⟨a, b, hleft, hright, rfl⟩ := Tree.value?_binary_eq_some_iff.mp hv
      exact Converts.binary .times (iha hleft) (ihb hright)
  | number value =>
      obtain rfl := Option.some.inj hv
      apply Converts.operand
      intro yard
      rfl
  | constant name =>
      rw [Tree.value?] at hv
      apply Converts.operand
      intro yard
      rw [Yard.take, hv]
      rfl
  | parens h ih => exact (ih hv).parens _

/-- A name without a value stops the conversion. -/
theorem foldlM_take_eq_none {name : String} (hname : .ident name ∈ tokens)
    (hnone : known.get? name = none) (yard : Yard) :
  tokens.foldlM (Yard.take known) yard = none
  := by
  induction tokens generalizing yard with
  | nil => contradiction
  | cons token tokens ih =>
      rw [List.foldlM_cons]
      rcases List.mem_cons.mp hname with rfl | hname
      · rw [Yard.take, hnone]
        rfl
      · cases yard.take known token with
        | none => rfl
        | some yard' => exact ih hname yard'

/-- Every expression has the value of its tree. -/
theorem runPostfix_toPostfix {e : Tree} (h : Derives .sum tokens e) :
  (toPostfix known tokens).bind runPostfix = e.value? known
  := by
  cases hv : e.value? known with
  | none =>
      obtain ⟨name, hname, hnone⟩ := Tree.value?_eq_none_iff.mp hv
      rw [toPostfix, foldlM_take_eq_none (h.ident_mem hname) hnone]
      rfl
  | some v =>
      obtain ⟨steps, pending, htake, hpending, hrun⟩ :=
        converts_of_derives h hv Yard.start (by simp [Yard.start])
      have hrelease := Yard.release_append
        (fun x hx => Waiting.isOp_of_yieldsTo (hpending x hx))
        (by simp : ∀ x ∈ ([] : List Waiting).head?, x.isOp = false) (steps ++ [])
      rw [toPostfix, htake]
      simp only [Option.bind_eq_bind, Option.bind_some, Yard.start, Yard.finish, hrelease]
      simp [runPostfix, hrun]

/-! ### What has a value -/

/-- Whether a step pushes a value. -/
def Step.isPush : Step → Bool
  | .push _ => true
  | .combine _ => false

@[simp]
theorem Step.isPush_push (value : Int) : (Step.push value).isPush = true := rfl

@[simp]
theorem Step.isPush_combine (o : Op) : (Step.combine o).isPush = false := rfl

@[simp]
theorem Waiting.isOp_op (o : Op) : (Waiting.op o).isOp = true := rfl

@[simp]
theorem Waiting.isOp_paren : Waiting.paren.isOp = false := rfl

/-- Waiting operators combine, and parentheses leave no step. -/
theorem countP_filterMap_step? (waiting : List Waiting) :
  (waiting.filterMap Waiting.step?).countP Step.isPush = 0 ∧
    (waiting.filterMap Waiting.step?).countP (!·.isPush) = waiting.countP Waiting.isOp
  := by
  induction waiting with
  | nil => exact ⟨rfl, rfl⟩
  | cons x waiting ih =>
      cases x with
      | op o =>
          have hstep : Waiting.step? (.op o) = some (.combine o) := rfl
          rw [List.filterMap_cons_some hstep, List.countP_cons, List.countP_cons, List.countP_cons,
            ih.1, ih.2]
          simp
      | paren =>
          rw [List.filterMap_cons_none rfl, List.countP_cons, ih.1, ih.2]
          simp

namespace Yard

/-- The values that have been pushed. -/
def pushes (yard : Yard) : Nat :=
  yard.output.countP Step.isPush

/-- The operators that combine two values each, or wait to do so. -/
def combines (yard : Yard) : Nat :=
  yard.output.countP (!·.isPush) + yard.waiting.countP Waiting.isOp

/-- The parentheses that are open. -/
def depth (yard : Yard) : Nat :=
  yard.waiting.countP (!·.isOp)

/-- Released operators are still counted, and the parentheses stay open. -/
theorem count_release {p : Waiting → Bool} (hp : ∀ {x}, p x → x.isOp) (yard : Yard) :
  (yard.release p).pushes = yard.pushes ∧ (yard.release p).combines = yard.combines ∧
    (yard.release p).depth = yard.depth
  := by
  obtain ⟨output, waiting⟩ := yard
  obtain ⟨hpush, hcombine⟩ := countP_filterMap_step? (waiting.takeWhile p)
  have hsplit : ∀ q : Waiting → Bool, waiting.countP q =
      (waiting.takeWhile p).countP q + (waiting.dropWhile p).countP q := by
    intro q
    rw [← List.countP_append, List.takeWhile_append_dropWhile]
  have hparen : (waiting.takeWhile p).countP (!·.isOp) = 0 := by
    rw [List.countP_eq_zero]
    intro x hx
    simp [hp (List.mem_takeWhile_imp hx)]
  refine ⟨?_, ?_, ?_⟩
  · simp only [pushes, release, List.countP_append, List.countP_reverse, hpush, Nat.zero_add]
  · simp only [combines, release, List.countP_append, List.countP_reverse, hcombine, hsplit]
    omega
  · simp only [depth, release, hsplit (!·.isOp), hparen, Nat.zero_add]

/-- What a token adds to the counts; the parentheses after it match if all do. -/
theorem count_take {yard yard' : Yard} {token : Token} (h : yard.take known token = some yard') :
  yard'.pushes = yard.pushes + (if token.isOperand then 1 else 0) ∧
    yard'.combines = yard.combines + (if token.isOperator then 1 else 0) ∧
    ∀ tokens, Balanced yard'.depth tokens → Balanced yard.depth (token :: tokens)
  := by
  cases token with
  | number value =>
      obtain rfl := Option.some.inj h
      refine ⟨List.countP_cons, ?_, fun tokens => id⟩
      simp [combines, Token.isOperator]
  | ident name =>
      obtain ⟨value, -, rfl⟩ := Option.map_eq_some_iff.mp h
      refine ⟨List.countP_cons, ?_, fun tokens => id⟩
      simp [combines, Token.isOperator]
  | op o =>
      obtain ⟨hpushes, hcombines, hdepth⟩ := count_release Waiting.isOp_of_yieldsTo yard
      obtain rfl := Option.some.inj h
      refine ⟨hpushes, ?_, ?_⟩
      · rw [← hcombines]
        simp only [combines, List.countP_cons]
        rfl
      · intro tokens hbalanced
        rw [Balanced, ← hdepth]
        simpa [depth, List.countP_cons] using hbalanced
  | openParen =>
      obtain rfl := Option.some.inj h
      refine ⟨rfl, ?_, ?_⟩
      · simp [combines, Token.isOperator]
      · intro tokens hbalanced
        simpa [depth, Balanced, List.countP_cons] using hbalanced
  | closeParen =>
      obtain ⟨hpushes, hcombines, hdepth⟩ := count_release id yard
      have hhead := List.head?_dropWhile_not Waiting.isOp yard.waiting
      rw [take] at h
      split at h
      · contradiction
      · rename_i x waiting hwaiting
        obtain rfl := Option.some.inj h
        rw [show yard.waiting.dropWhile Waiting.isOp = x :: waiting from hwaiting] at hhead
        have hx : x.isOp = false := hhead
        refine ⟨hpushes, ?_, ?_⟩
        · rw [← hcombines]
          simp [combines, hwaiting, hx, Token.isOperator]
        · intro tokens hbalanced
          rw [Balanced, ← hdepth]
          simpa [depth, hwaiting, List.countP_cons, hx] using hbalanced

/-- The counts of a conversion are those of its tokens, and the parentheses match if none is open
in the end. -/
theorem count_foldlM {yard yard' : Yard} (h : tokens.foldlM (take known) yard = some yard') :
  yard'.pushes = yard.pushes + operands tokens ∧
    yard'.combines = yard.combines + operators tokens ∧
    (yard'.depth = 0 → Balanced yard.depth tokens)
  := by
  induction tokens generalizing yard with
  | nil =>
      obtain rfl := Option.some.inj h
      exact ⟨rfl, rfl, id⟩
  | cons token tokens ih =>
      rw [List.foldlM_cons] at h
      obtain ⟨yard₁, htoken, h⟩ := Option.bind_eq_some_iff.mp h
      obtain ⟨hpushes, hcombines, hbalanced⟩ := count_take htoken
      obtain ⟨hpushes', hcombines', hbalanced'⟩ := ih h
      rw [operands_cons, operators_cons]
      exact ⟨by omega, by omega, fun hdepth => hbalanced tokens (hbalanced' hdepth)⟩

theorem count_finish {yard : Yard} {steps : List Step} (h : yard.finish = some steps) :
  steps.countP Step.isPush = yard.pushes ∧ steps.countP (!·.isPush) = yard.combines ∧
    yard.depth = 0
  := by
  obtain ⟨hpushes, hcombines, hdepth⟩ := count_release id yard
  rw [finish] at h
  split at h
  · rename_i hempty
    obtain rfl := Option.some.inj h
    rw [List.isEmpty_iff] at hempty
    rw [← hpushes, ← hcombines, ← hdepth]
    simp [pushes, combines, depth, hempty]
  · contradiction

end Yard

/-- Every push makes the stack longer by one value, and every combination shorter. -/
theorem length_foldlM_run {steps : List Step} {stack stack' : List Int}
    (h : steps.foldlM Step.run stack = some stack') :
  stack'.length + steps.countP (!·.isPush) = stack.length + steps.countP Step.isPush
  := by
  induction steps generalizing stack with
  | nil =>
      obtain rfl := Option.some.inj h
      rfl
  | cons step steps ih =>
      rw [List.foldlM_cons] at h
      obtain ⟨stack₁, hstep, h⟩ := Option.bind_eq_some_iff.mp h
      have hrest := ih h
      rw [List.countP_cons, List.countP_cons]
      cases step with
      | push value =>
          obtain rfl := Option.some.inj hstep
          simp only [List.length_cons] at hrest
          simp
          omega
      | combine o =>
          rw [Step.run.eq_def] at hstep
          dsimp only at hstep
          split at hstep
          · obtain rfl := Option.some.inj hstep
            simp only [List.length_cons] at hrest
            simp
            omega
          · contradiction

/-- What has a value has matching parentheses and one operand more than operators. -/
theorem balanced_of_value {v : Int} (h : (toPostfix known tokens).bind runPostfix = some v) :
  Balanced 0 tokens ∧ operands tokens = operators tokens + 1
  := by
  obtain ⟨steps, hsteps, hrun⟩ := Option.bind_eq_some_iff.mp h
  obtain ⟨yard, hyard, hfinish⟩ := Option.bind_eq_some_iff.mp hsteps
  obtain ⟨stack, hstack, hvalue⟩ := Option.bind_eq_some_iff.mp hrun
  obtain ⟨hpushes, hcombines, hbalanced⟩ := Yard.count_foldlM hyard
  obtain ⟨hpushes', hcombines', hdepth⟩ := Yard.count_finish hfinish
  have hlength := length_foldlM_run hstack
  have hone : stack.length = 1 := by
    split at hvalue
    · rfl
    · contradiction
  have hstart : Yard.start.pushes = 0 ∧ Yard.start.combines = 0 := ⟨rfl, rfl⟩
  refine ⟨hbalanced hdepth, ?_⟩
  simp only [List.length_nil] at hlength
  omega

/-! ### Evaluation -/

/-- The tokens of an expression decide its value, also if there are none. -/
theorem evaluate_of_tokenize {expr : Text} (h : Token.tokenize expr = .ok (some tokens)) :
  evaluate known expr = .ok ((toPostfix known tokens).bind runPostfix)
  := by
  rw [evaluate, h]
  cases tokens with
  | nil => rfl
  | cons token tokens => rfl

theorem evaluate_eq_some_iff {expr : Text} {v : Int} :
  evaluate known expr = .ok (some v) ↔
    ∃ tokens, Token.tokenize expr = .ok (some tokens) ∧
      (toPostfix known tokens).bind runPostfix = some v
  := by
  constructor
  · intro h
    obtain ⟨found, htokens, hvalue⟩ := bind_eq_ok_iff.mp h
    cases found with
    | none => cases hvalue
    | some tokens =>
        rw [evaluate_of_tokenize htokens] at h
        exact ⟨tokens, htokens, Except.ok.inj h⟩
  · rintro ⟨tokens, htokens, hvalue⟩
    rw [evaluate_of_tokenize htokens, hvalue]

/-- Only sequences with matching parentheses, one operand more than operators and names that have
values are given a value.  As long as no operand follows another one directly, these are exactly
the expressions, each with the value of its tree. -/
theorem evaluate_accepts (known : Table Int) (expr : Text) (v : Int) :
  (evaluate known expr = .ok (some v) →
    ∃ tokens, Token.tokenize expr = .ok (some tokens) ∧ Balanced 0 tokens ∧
      operands tokens = operators tokens + 1 ∧
      ∀ name, .ident name ∈ tokens → known.get? name ≠ none) ∧
  ((evaluate known expr = .ok (some v) ∧
      ∃ tokens, Token.tokenize expr = .ok (some tokens) ∧ Separated tokens) ↔
    ∃ tokens e, Token.tokenize expr = .ok (some tokens) ∧ Derives .sum tokens e ∧
      e.value? known = some v)
  := by
  rw [evaluate_eq_some_iff]
  refine ⟨?_, ?_, ?_⟩
  · rintro ⟨tokens, htokens, hvalue⟩
    obtain ⟨hbalanced, hcount⟩ := balanced_of_value hvalue
    refine ⟨tokens, htokens, hbalanced, hcount, ?_⟩
    intro name hname hnone
    rw [toPostfix, foldlM_take_eq_none hname hnone] at hvalue
    contradiction
  · rintro ⟨⟨tokens, htokens, hvalue⟩, tokens', htokens', hseparated⟩
    obtain rfl := Option.some.inj (Except.ok.inj (htokens.symm.trans htokens'))
    obtain ⟨hbalanced, hcount⟩ := balanced_of_value hvalue
    obtain ⟨e, he⟩ := exists_derives hseparated hbalanced hcount
    exact ⟨tokens, e, htokens, he, (runPostfix_toPostfix he).symm.trans hvalue⟩
  · rintro ⟨tokens, e, htokens, he, hvalue⟩
    exact ⟨⟨tokens, htokens, (runPostfix_toPostfix he).trans hvalue⟩, tokens, htokens,
      he.separated⟩

/-- An operator after its two operands is no expression, but it is given a value. -/
theorem evaluate_operator_last :
  evaluate [] "1 2 +".toList = .ok (some 3) ∧
    ¬ ∃ tokens e, Token.tokenize "1 2 +".toList = .ok (some tokens) ∧ Derives .sum tokens e
  := by
  refine ⟨by decide +kernel, ?_⟩
  rintro ⟨tokens, e, htokens, he⟩
  have htokens' : Token.tokenize "1 2 +".toList = .ok (some [.number 1, .number 2, .op .plus]) := by
    decide +kernel
  obtain rfl := Option.some.inj (Except.ok.inj (htokens'.symm.trans htokens))
  have hseparated := he.separated
  revert hseparated
  decide

end ContractInterface.Expr
