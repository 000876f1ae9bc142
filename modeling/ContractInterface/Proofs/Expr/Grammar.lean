import ContractInterface.Expr.Token
import ContractInterface.Table
import Mathlib.Data.List.Chain

/-!
# The grammar of constant expressions

An expression is a sum of products of factors; a factor is a number, a name or a sum in
parentheses.  `Derives` says which tree a sequence of tokens stands for.  Precedence plays no part
in which sequences are derivable: they are the alternations of factors and operators.  So a
sequence is derivable if its parentheses match, it has one operand more than operators, and
nowhere an operand follows another one directly.
-/

namespace ContractInterface.Expr

/-! ### Trees -/

/-- An expression: numbers and names, combined by operators. -/
inductive Tree where
  | number (value : Nat)
  | constant (name : String)
  | binary (o : Op) (left right : Tree)
  deriving DecidableEq, Repr

namespace Tree

/-- The value of an expression, if all its names have one. -/
def value? (known : Table Int) : Tree → Option Int
  | .number value => some value
  | .constant name => known.get? name
  | .binary o left right => do return o.apply (← left.value? known) (← right.value? known)

/-- The names in an expression. -/
def names : Tree → List String
  | .number _ => []
  | .constant name => [name]
  | .binary _ left right => left.names ++ right.names

theorem value?_binary_eq_some_iff {known : Table Int} {o : Op} {left right : Tree} {v : Int} :
  (binary o left right).value? known = some v ↔
    ∃ a b, left.value? known = some a ∧ right.value? known = some b ∧ o.apply a b = v
  := by
  rw [value?]
  cases left.value? known with
  | none => simp
  | some a =>
      cases right.value? known with
      | none => simp
      | some b => simp

/-- An expression has no value exactly if one of its names has none. -/
theorem value?_eq_none_iff {known : Table Int} {e : Tree} :
  e.value? known = none ↔ ∃ name ∈ e.names, known.get? name = none
  := by
  induction e with
  | number value => simp [value?, names]
  | constant name => simp [value?, names]
  | binary o left right ihleft ihright =>
      have hbinary : (binary o left right).value? known = none ↔
          left.value? known = none ∨ right.value? known = none := by
        rw [value?]
        cases left.value? known with
        | none => simp
        | some a =>
            cases right.value? known with
            | none => simp
            | some b => simp
      rw [hbinary, ihleft, ihright, names]
      simp only [List.mem_append, or_and_right, exists_or]

end Tree

/-! ### Derivations -/

/-- The kinds of expressions, by how tightly they are bound. -/
inductive Level where
  | sum
  | product
  | factor
  deriving DecidableEq, Repr

/-- A sequence of tokens is an expression of some kind and stands for a tree. -/
inductive Derives : Level → List Token → Tree → Prop
  | ofProduct {tokens : List Token} {e : Tree} (h : Derives .product tokens e) :
      Derives .sum tokens e
  | plus {left right : List Token} {a b : Tree} (ha : Derives .sum left a)
      (hb : Derives .product right b) :
      Derives .sum (left ++ .op .plus :: right) (.binary .plus a b)
  | minus {left right : List Token} {a b : Tree} (ha : Derives .sum left a)
      (hb : Derives .product right b) :
      Derives .sum (left ++ .op .minus :: right) (.binary .minus a b)
  | ofFactor {tokens : List Token} {e : Tree} (h : Derives .factor tokens e) :
      Derives .product tokens e
  | times {left right : List Token} {a b : Tree} (ha : Derives .product left a)
      (hb : Derives .factor right b) :
      Derives .product (left ++ .op .times :: right) (.binary .times a b)
  | number (value : Nat) : Derives .factor [.number value] (.number value)
  | constant (name : String) : Derives .factor [.ident name] (.constant name)
  | parens {tokens : List Token} {e : Tree} (h : Derives .sum tokens e) :
      Derives .factor (.openParen :: tokens ++ [.closeParen]) e

/-- The names of a tree are tokens of every sequence that stands for it. -/
theorem Derives.ident_mem {level : Level} {tokens : List Token} {e : Tree}
    (h : Derives level tokens e) {name : String} (hname : name ∈ e.names) :
  .ident name ∈ tokens
  := by
  induction h with
  | ofProduct h ih => exact ih hname
  | ofFactor h ih => exact ih hname
  | plus ha hb iha ihb | minus ha hb iha ihb | times ha hb iha ihb =>
      rw [Tree.names, List.mem_append] at hname
      rw [List.mem_append, List.mem_cons]
      rcases hname with hname | hname
      · left
        exact iha hname
      · right
        right
        exact ihb hname
  | number value => contradiction
  | constant name => simpa [Tree.names] using hname
  | parens h ih => simp [ih hname]

/-! ### Operands side by side -/

namespace Token

/-- Whether a token is a number or a name. -/
def isOperand : Token → Bool
  | .number _ | .ident _ => true
  | .op _ | .openParen | .closeParen => false

/-- Whether a token is an operator. -/
def isOperator : Token → Bool
  | .op _ => true
  | .number _ | .ident _ | .openParen | .closeParen => false

/-- Whether an operand of an operator can start with the token. -/
def startsOperand : Token → Bool
  | .number _ | .ident _ | .openParen => true
  | .op _ | .closeParen => false

/-- Whether an operand of an operator can end with the token. -/
def endsOperand : Token → Bool
  | .number _ | .ident _ | .closeParen => true
  | .op _ | .openParen => false

end Token

/-- Nowhere an operand follows another one directly. -/
def Separated (tokens : List Token) : Prop :=
  tokens.IsChain fun a b => ¬ (a.endsOperand ∧ b.startsOperand)

instance (tokens : List Token) : Decidable (Separated tokens) :=
  inferInstanceAs (Decidable (tokens.IsChain fun a b => ¬ (a.endsOperand ∧ b.startsOperand)))

theorem separated_cons {token : Token} {tokens : List Token} :
  Separated (token :: tokens) ↔
    (∀ next ∈ tokens.head?, ¬ (token.endsOperand ∧ next.startsOperand)) ∧ Separated tokens
  := List.isChain_cons

theorem Separated.operator {left right : List Token} (hleft : Separated left)
    (hright : Separated right) (o : Op) :
  Separated (left ++ .op o :: right)
  := by
  apply List.IsChain.append hleft
  · rw [List.isChain_cons]
    exact ⟨by simp [Token.endsOperand], hright⟩
  · simp [Token.startsOperand]

/-- In an expression operators keep the operands apart. -/
theorem Derives.separated {level : Level} {tokens : List Token} {e : Tree}
    (h : Derives level tokens e) :
  Separated tokens
  := by
  induction h with
  | ofProduct h ih => exact ih
  | ofFactor h ih => exact ih
  | plus ha hb iha ihb | minus ha hb iha ihb | times ha hb iha ihb => exact iha.operator ihb _
  | number value => apply List.isChain_singleton
  | constant name => apply List.isChain_singleton
  | parens h ih =>
      rw [List.cons_append, separated_cons]
      refine ⟨by simp [Token.endsOperand], ?_⟩
      apply List.IsChain.append ih (List.isChain_singleton _)
      simp [Token.startsOperand]

/-- The number of operands. -/
def operands (tokens : List Token) : Nat :=
  tokens.countP Token.isOperand

/-- The number of operators. -/
def operators (tokens : List Token) : Nat :=
  tokens.countP Token.isOperator

theorem operands_cons (token : Token) (tokens : List Token) :
  operands (token :: tokens) = operands tokens + if token.isOperand then 1 else 0
  := List.countP_cons

theorem operators_cons (token : Token) (tokens : List Token) :
  operators (token :: tokens) = operators tokens + if token.isOperator then 1 else 0
  := List.countP_cons

/-- Parentheses match, with a number of them open at the start. -/
def Balanced : Nat → List Token → Prop
  | depth, [] => depth = 0
  | depth, .openParen :: tokens => Balanced (depth + 1) tokens
  | depth, .closeParen :: tokens => 0 < depth ∧ Balanced (depth - 1) tokens
  | depth, .number _ :: tokens | depth, .ident _ :: tokens | depth, .op _ :: tokens =>
    Balanced depth tokens

/-- Between two operands that are kept apart there is an operator, so there is at most one operand
more than operators, and none more after an operand. -/
theorem operands_le {after : Bool} {tokens : List Token}
    (hhead : ∀ token ∈ tokens.head?, ¬ (after ∧ token.startsOperand)) (h : Separated tokens) :
  operands tokens + (if after then 1 else 0) ≤ operators tokens + 1
  := by
  induction tokens generalizing after with
  | nil =>
      cases after with
      | false => decide
      | true => decide
  | cons token tokens ih =>
      obtain ⟨hnext, h⟩ := separated_cons.mp h
      have hrest := ih hnext h
      have htoken := hhead token rfl
      rw [operands_cons, operators_cons]
      cases token with
      | number value | ident name =>
          -- no operand stands before this one
          simp [Token.startsOperand] at htoken
          simp [Token.isOperand, Token.isOperator, Token.endsOperand, htoken] at hrest ⊢
          omega
      | op o =>
          simp [Token.isOperand, Token.isOperator, Token.endsOperand] at hrest ⊢
          split <;> omega
      | openParen =>
          simp [Token.startsOperand] at htoken
          simp [Token.isOperand, Token.isOperator, Token.endsOperand, htoken] at hrest ⊢
          omega
      | closeParen =>
          simp [Token.isOperand, Token.isOperator, Token.endsOperand] at hrest ⊢
          split <;> omega

/-! ### Alternations -/

/-- Factors with operators between them. -/
inductive Alternates : List Token → Prop
  | factor {tokens : List Token} {e : Tree} (h : Derives .factor tokens e) : Alternates tokens
  | operator {left right : List Token} {e : Tree} (hleft : Alternates left) (o : Op)
      (hright : Derives .factor right e) : Alternates (left ++ .op o :: right)

/-- An alternation ends with a product, which goes on if a multiplication follows and is complete
otherwise. -/
theorem Alternates.exists_product {tokens : List Token} (h : Alternates tokens) :
  ∃ front last b, tokens = front ++ last ∧ Derives .product last b ∧
    ∀ {product c}, Derives .product product c → ∃ e, Derives .sum (front ++ product) e
  := by
  induction h with
  | @factor tokens e h => exact ⟨[], tokens, e, rfl, .ofFactor h, fun hc => ⟨_, .ofProduct hc⟩⟩
  | @operator left right e hleft o hright ih =>
      obtain ⟨front, last, b, rfl, hb, hsum⟩ := ih
      obtain ⟨a, ha⟩ := hsum hb
      have happend : ∀ product, front ++ last ++ [.op o] ++ product =
          front ++ last ++ .op o :: product := by
        simp
      cases o with
      | times => exact ⟨front, last ++ .op .times :: right, _, by simp, .times hb hright, hsum⟩
      | plus =>
          refine ⟨front ++ last ++ [.op .plus], right, e, by simp, .ofFactor hright, ?_⟩
          intro product c hc
          rw [happend]
          exact ⟨_, .plus ha hc⟩
      | minus =>
          refine ⟨front ++ last ++ [.op .minus], right, e, by simp, .ofFactor hright, ?_⟩
          intro product c hc
          rw [happend]
          exact ⟨_, .minus ha hc⟩

/-- Alternations are sums. -/
theorem Alternates.exists_derives {tokens : List Token} (h : Alternates tokens) :
  ∃ e, Derives .sum tokens e
  := by
  obtain ⟨front, last, b, rfl, hb, hsum⟩ := h.exists_product
  exact hsum hb

/-- What can stand before an operand: nothing, or an alternation with an operator after it. -/
def Awaits (tokens : List Token) : Prop :=
  tokens = [] ∨ ∃ left o, Alternates left ∧ tokens = left ++ [.op o]

theorem Awaits.alternates {tokens factor : List Token} {e : Tree} (h : Awaits tokens)
    (hfactor : Derives .factor factor e) :
  Alternates (tokens ++ factor)
  := by
  rcases h with rfl | ⟨left, o, hleft, rfl⟩
  · exact .factor hfactor
  · rw [List.append_assoc, List.singleton_append]
    exact .operator hleft o hfactor

/-- What has been read inside of parentheses, with an operand at its end or with one missing. -/
def Reads : Bool → List Token → Prop
  | true, tokens => Alternates tokens
  | false, tokens => Awaits tokens

/-- A sequence inside of open parentheses, with what stands before each of them, innermost first. -/
def enclose (outer : List (List Token)) (inner : List Token) : List Token :=
  outer.foldl (fun inner before => before ++ .openParen :: inner) inner

/-- Reading goes on inside of open parentheses: what has been read in the innermost ones is an
alternation after an operand, and awaits an operand otherwise.  As many operands and operators
are to come as are missing, so none stands where it should not. -/
theorem alternates_enclose {tokens : List Token} {outer : List (List Token)} {inner : List Token}
    {after : Bool} (houter : ∀ before ∈ outer, Awaits before)
    (hinner : Reads after inner)
    (hhead : ∀ token ∈ tokens.head?, ¬ (after ∧ token.startsOperand))
    (hseparated : Separated tokens) (hbalanced : Balanced outer.length tokens)
    (hcount : operands tokens + (if after then 1 else 0) = operators tokens + 1) :
  Alternates (enclose outer (inner ++ tokens))
  := by
  induction tokens generalizing outer inner after with
  | nil =>
      obtain rfl := List.length_eq_zero_iff.mp hbalanced
      cases after with
      | false => simp [operands, operators] at hcount
      | true =>
          rw [List.append_nil]
          exact hinner
  | cons token tokens ih =>
      obtain ⟨hnext, hrest⟩ := separated_cons.mp hseparated
      have hmost := operands_le hnext hrest
      have htoken := hhead token rfl
      rw [operands_cons, operators_cons] at hcount
      cases token with
      | number value =>
          simp only [Token.startsOperand, and_true, Bool.not_eq_true] at htoken
          subst htoken
          rw [← List.singleton_append, ← List.append_assoc]
          apply ih houter _ hnext hrest hbalanced hcount
          exact Awaits.alternates hinner (.number value)
      | ident name =>
          simp only [Token.startsOperand, and_true, Bool.not_eq_true] at htoken
          subst htoken
          rw [← List.singleton_append, ← List.append_assoc]
          apply ih houter _ hnext hrest hbalanced hcount
          exact Awaits.alternates hinner (.constant name)
      | op o =>
          simp only [Token.isOperand, Token.isOperator, Token.endsOperand, Bool.false_eq_true,
            if_false, if_true] at hcount hmost
          cases after with
          | false =>
              rw [if_neg Bool.false_ne_true] at hcount
              omega
          | true =>
              rw [← List.singleton_append, ← List.append_assoc]
              apply ih houter _ hnext hrest hbalanced (Nat.succ.inj hcount)
              right
              exact ⟨inner, o, hinner, rfl⟩
      | openParen =>
          simp only [Token.startsOperand, and_true, Bool.not_eq_true] at htoken
          subst htoken
          have hopen : ∀ before ∈ inner :: outer, Awaits before := by
            intro before hbefore
            rcases List.mem_cons.mp hbefore with rfl | hbefore
            · exact hinner
            · exact houter before hbefore
          have hstart : Reads false [] := Or.inl rfl
          exact ih hopen hstart hnext hrest hbalanced hcount
      | closeParen =>
          simp only [Token.isOperand, Token.isOperator, Token.endsOperand, Bool.false_eq_true,
            if_false, if_true] at hcount hmost
          cases after with
          | false =>
              rw [if_neg Bool.false_ne_true] at hcount
              omega
          | true =>
              obtain ⟨hopen, hbalanced⟩ := hbalanced
              obtain ⟨before, outer, rfl⟩ := List.exists_cons_of_length_pos hopen
              obtain ⟨e, he⟩ := Alternates.exists_derives hinner
              have hbefore : Awaits before := houter before List.mem_cons_self
              have hclosed : Reads true (before ++ (.openParen :: inner ++ [.closeParen])) :=
                hbefore.alternates (.parens he)
              have hread : enclose (before :: outer) (inner ++ .closeParen :: tokens) =
                  enclose outer (before ++ (.openParen :: inner ++ [.closeParen]) ++ tokens) := by
                simp [enclose]
              rw [hread]
              exact ih (fun b hb => houter b (List.mem_cons_of_mem before hb)) hclosed hnext
                hrest hbalanced hcount

/-- A sequence in which operands are kept apart is derivable if its parentheses match and it has
one operand more than operators. -/
theorem exists_derives {tokens : List Token} (hseparated : Separated tokens)
    (hbalanced : Balanced 0 tokens) (hcount : operands tokens = operators tokens + 1) :
  ∃ e, Derives .sum tokens e
  := by
  have hstart : Reads false [] := Or.inl rfl
  have houter : ∀ before ∈ ([] : List (List Token)), Awaits before := by simp
  have halternates := alternates_enclose houter hstart (by simp) hseparated hbalanced hcount
  exact halternates.exists_derives

end ContractInterface.Expr
