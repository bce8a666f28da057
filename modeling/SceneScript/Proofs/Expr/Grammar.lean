import SceneScript.Expr.Token

/-!
# The grammar of clauses

    clause         := NAME '=' clause | equality
    equality       := comparison (('==' | '!=') comparison)*
    comparison     := additive (('<' | '<=' | '>' | '>=') additive)*
    additive       := multiplicative (('+' | '-') multiplicative)*
    multiplicative := unary (('*' | '/' | '%') unary)*
    unary          := '-' unary | primary
    primary        := NUMBER | NAME | '(' clause ')'

`Derives` says which tokens a nonterminal derives. It does not mention readers,
cursors or limits, and it has its own list of the operators of each level. A derivation carries its tree, how deep its points lie inside
parentheses, unary minuses and right-hand sides of assignments, and how many
operators it has.
-/

set_option autoImplicit false

namespace SceneScript

/-- Nonterminals. The four levels of binary operators differ in their precedence
only. -/
inductive Nonterminal where
  | clause
  | level (precedence : Precedence)
  | unary
  | primary
deriving Repr, DecidableEq

/-- The operators of each level. -/
def Precedence.operators : Precedence → List BinaryOp
  | .equality => [.eq, .ne]
  | .comparison => [.lt, .le, .gt, .ge]
  | .additive => [.add, .sub]
  | .multiplicative => [.mul, .div, .rem]

/-- What the operators of one level join: the next tighter level. -/
def Precedence.operand : Precedence → Nonterminal
  | .equality => .level .comparison
  | .comparison => .level .additive
  | .additive => .level .multiplicative
  | .multiplicative => .unary

/-- Levels counted from the loosest. -/
def Precedence.rank : Precedence → Nat
  | .equality => 0
  | .comparison => 1
  | .additive => 2
  | .multiplicative => 3

/-- The tokens of a nonterminal, with their tree, the deepest nesting of
parentheses, unary minuses and right-hand sides of assignments, and the count of
operators. The operators of one level join to the left and assignments join to the
right. Parentheses leave no node. Names and binary operators keep the column of
their own token. -/
inductive Derives : Nonterminal → List Token → Expr → Nat → Nat → Prop where
  | number {value : Float} {column : Nat} :
      Derives .primary [⟨.number value, column⟩] (.number value) 0 0
  | name {name : String} {column : Nat} :
      Derives .primary [⟨.name name, column⟩] (.var name column) 0 0
  | parentheses {inner : List Token} {tree : Expr} {nesting operators first last : Nat} :
      Derives .clause inner tree nesting operators →
      Derives .primary (⟨.opening, first⟩ :: inner ++ [⟨.closing, last⟩]) tree
        (nesting + 1) operators
  | minus {operand : List Token} {tree : Expr} {nesting operators column : Nat} :
      Derives .unary operand tree nesting operators →
      Derives .unary (⟨.operator .sub, column⟩ :: operand) (.neg tree)
        (nesting + 1) (operators + 1)
  | primary {tokens : List Token} {tree : Expr} {nesting operators : Nat} :
      Derives .primary tokens tree nesting operators →
      Derives .unary tokens tree nesting operators
  | operand {precedence : Precedence} {tokens : List Token} {tree : Expr}
      {nesting operators : Nat} :
      Derives precedence.operand tokens tree nesting operators →
      Derives (.level precedence) tokens tree nesting operators
  | joined {precedence : Precedence} {op : BinaryOp} {column : Nat} {left right : List Token}
      {leftTree rightTree : Expr}
      {leftNesting rightNesting leftOperators rightOperators : Nat} :
      op ∈ precedence.operators →
      Derives (.level precedence) left leftTree leftNesting leftOperators →
      Derives precedence.operand right rightTree rightNesting rightOperators →
      Derives (.level precedence) (left ++ ⟨.operator op, column⟩ :: right)
        (.binary op column leftTree rightTree) (max leftNesting rightNesting)
        (leftOperators + rightOperators + 1)
  | equality {tokens : List Token} {tree : Expr} {nesting operators : Nat} :
      Derives (.level .equality) tokens tree nesting operators →
      Derives .clause tokens tree nesting operators
  | assignment {target : String} {first second : Nat} {value : List Token} {tree : Expr}
      {nesting operators : Nat} :
      Derives .clause value tree nesting operators →
      Derives .clause (⟨.name target, first⟩ :: ⟨.assign, second⟩ :: value)
        (.assign target tree) (nesting + 1) (operators + 1)

/-- The readers take the level of an operator from the operator. -/
theorem Precedence.mem_operators_iff {precedence : Precedence} {op : BinaryOp} :
    op ∈ precedence.operators ↔ op.precedence = precedence := by
  cases precedence <;> cases op <;> decide

/-! ## What may follow -/

/-- A text of tokens that cannot be taken for more of a level with the given rank
or a tighter one. -/
def EndsLevel (rank : Nat) (rest : List Token) : Prop :=
  ∀ op column, rest.head? = some ⟨.operator op, column⟩ → op.precedence.rank < rank

/-- A text of tokens that cannot be taken for more of a nonterminal. -/
def Nonterminal.EndsBefore : Nonterminal → List Token → Prop
  | .clause, rest =>
      EndsLevel 0 rest ∧ ∀ column, rest.head? ≠ some ⟨.assign, column⟩
  | .level precedence, rest => EndsLevel precedence.rank rest
  | .unary, _ => True
  | .primary, _ => True

theorem Precedence.operand_endsBefore {precedence : Precedence} {rest : List Token}
    (ends : EndsLevel (precedence.rank + 1) rest) : precedence.operand.EndsBefore rest := by
  cases precedence with
  | equality => exact ends
  | comparison => exact ends
  | additive => exact ends
  | multiplicative => trivial

theorem EndsLevel.mono {loose tight : Nat} {rest : List Token}
    (ends : EndsLevel loose rest) (order : loose ≤ tight) : EndsLevel tight rest := by
  intro op column head
  exact Nat.lt_of_lt_of_le (ends op column head) order

theorem endsLevel_operator (op : BinaryOp) (column : Nat) (rest : List Token) :
    EndsLevel (op.precedence.rank + 1) (⟨.operator op, column⟩ :: rest) := by
  intro other otherColumn head
  simp only [List.head?_cons, Option.some.injEq, Token.mk.injEq, Lexeme.operator.injEq] at head
  rw [head.1]
  exact Nat.lt_succ_self _

theorem clause_endsBefore_closing (column : Nat) (rest : List Token) :
    Nonterminal.clause.EndsBefore (⟨.closing, column⟩ :: rest) := by
  constructor
  · intro op opColumn head
    simp at head
  · intro otherColumn head
    simp at head

theorem clause_endsBefore_nil : Nonterminal.clause.EndsBefore [] := by
  constructor
  · intro op column head
    cases head
  · intro column head
    cases head

/-! ## How derivations begin -/

theorem Derives.head_primary {tokens : List Token} {tree : Expr} {nesting operators : Nat}
    (derived : Derives .primary tokens tree nesting operators) (column : Nat)
    (rest : List Token) : (tokens ++ rest).head? ≠ some ⟨.operator .sub, column⟩ := by
  cases derived with
  | number => simp
  | name => simp
  | parentheses inner => simp

/-- Without an assignment at its start, a derivation is not mistaken for one, unless
an equals sign follows it. -/
theorem Derives.assign_head {symbol : Nonterminal} {tokens : List Token} {tree : Expr}
    {nesting operators : Nat} (derived : Derives symbol tokens tree nesting operators)
    (plain : symbol ≠ .clause) {rest more : List Token} {target : String} {first second : Nat}
    (begins : tokens ++ rest = ⟨.name target, first⟩ :: ⟨.assign, second⟩ :: more) :
    rest.head? = some ⟨.assign, second⟩ := by
  induction derived generalizing rest more with
  | number => simp at begins
  | name =>
      simp only [List.cons_append, List.nil_append, List.cons.injEq] at begins
      rw [begins.2, List.head?_cons]
  | parentheses => simp at begins
  | minus => simp at begins
  | primary _ ih => exact ih (by simp) begins
  | @operand precedence _ _ _ _ _ ih =>
      exact ih (by cases precedence <;> simp [Precedence.operand]) begins
  | joined _ _ _ leftIH _ =>
      rw [List.append_assoc] at begins
      have head := leftIH (by simp) begins
      simp at head
  | equality => exact absurd rfl plain
  | assignment => exact absurd rfl plain

end SceneScript
