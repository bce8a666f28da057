/-!
# Expressions

Clauses of a script are arithmetic expressions with comparisons and assignments.
Names and binary operators keep the column at which they stand, for the messages
about them. Parentheses leave no trace in the tree.
-/

set_option autoImplicit false

namespace SceneScript

/-- Binary operators. -/
inductive BinaryOp where
  | add | sub | mul | div | rem
  | eq | ne | lt | le | gt | ge
deriving Repr, DecidableEq

/-- How tightly a binary operator binds, from loosest to tightest. -/
inductive Precedence where
  | equality | comparison | additive | multiplicative
deriving Repr, DecidableEq

namespace BinaryOp

def symbol : BinaryOp → String
  | .add => "+"
  | .sub => "-"
  | .mul => "*"
  | .div => "/"
  | .rem => "%"
  | .eq => "=="
  | .ne => "!="
  | .lt => "<"
  | .le => "<="
  | .gt => ">"
  | .ge => ">="

def precedence : BinaryOp → Precedence
  | .add | .sub => .additive
  | .mul | .div | .rem => .multiplicative
  | .eq | .ne => .equality
  | .lt | .le | .gt | .ge => .comparison

/-- Whether the operator gives a truth value. -/
def isComparison (op : BinaryOp) : Bool :=
  op.precedence = .equality || op.precedence = .comparison

end BinaryOp

/-- Expression trees. -/
inductive Expr where
  | number (value : Float)
  | var (name : String) (column : Nat)
  | neg (operand : Expr)
  | binary (op : BinaryOp) (column : Nat) (left right : Expr)
  | assign (target : String) (value : Expr)

namespace Expr

/-- The count of operators in a tree. -/
def operatorCount : Expr → Nat
  | .number _ => 0
  | .var _ _ => 0
  | .neg operand => operand.operatorCount + 1
  | .binary _ _ left right => left.operatorCount + right.operatorCount + 1
  | .assign _ value => value.operatorCount + 1

/-- The names to which a tree assigns, in the order of evaluation. -/
def targets : Expr → List String
  | .number _ => []
  | .var _ _ => []
  | .neg operand => operand.targets
  | .binary _ _ left right => left.targets ++ right.targets
  | .assign target value => value.targets ++ [target]

end Expr

end SceneScript
