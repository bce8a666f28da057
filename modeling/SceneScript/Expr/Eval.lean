import SceneScript.Decimal.Remainder
import SceneScript.Expr.Clause
import SceneScript.Value
import SceneScript.Store

/-!
# Evaluation

Operands are evaluated from left to right, and an assignment takes effect when its
right-hand side has a value. What was assigned before a fault stays assigned, so
evaluation gives a store in every case.
-/

set_option autoImplicit false

namespace SceneScript

/-- Why a command or a clause fails when it runs. -/
inductive EvalFault where
  /-- The clause has no tree. -/
  | clause (source : String) (fault : ClauseFault)
  /-- A name that is not bound. -/
  | unbound (name : String) (column : Nat)
  /-- A unary minus in front of a truth value. -/
  | negation
  /-- A binary operator with a truth value beside it. -/
  | operands (op : BinaryOp) (column : Nat) (left right : Value.Kind)
  /-- A truth value on the right-hand side of an assignment. -/
  | assignment (target : String)
  /-- A truth value where a number is needed. -/
  | notANumber (value : Bool)
  /-- A coordinate that does not begin with an integer. -/
  | coordinate (text : String)

def EvalFault.message : EvalFault → String
  | .clause source fault => "in `" ++ source ++ "`: " ++ fault.message
  | .unbound name column => Nat.repr column ++ ": undefined: `" ++ name ++ "`"
  | .negation => "unary `-` not supported on `" ++ Value.Kind.bool.describe ++ "`"
  | .operands op column left right =>
    Nat.repr column ++ ": operator `" ++ op.symbol ++ "` not supported for `" ++ left.describe ++
      "` and `" ++ right.describe ++ "`"
  | .assignment target =>
    "cannot assign `" ++ Value.Kind.bool.describe ++ "` value to `" ++ target ++ "`"
  | .notANumber value => "expected a number, got `" ++ Value.boolText value ++ "`"
  | .coordinate text => "expected an integer coordinate, got `" ++ text ++ "`"

def Value.asNumber : Value → Except EvalFault Float
  | .number value => .ok value
  | .bool value => .error (.notANumber value)

/-- The value of a binary operator on two numbers. -/
def BinaryOp.apply (op : BinaryOp) (left right : Float) : Value :=
  match op with
  | .add => .number (left + right)
  | .sub => .number (left - right)
  | .mul => .number (left * right)
  | .div => .number (left / right)
  | .rem => .number (remainder left right)
  | .eq => .bool (left == right)
  | .ne => .bool (left != right)
  | .lt => .bool (left < right)
  | .le => .bool (left ≤ right)
  | .gt => .bool (right < left)
  | .ge => .bool (right ≤ left)

/-- A value or a fault, and the store afterwards. -/
abbrev Evaluated := Except EvalFault Value × Store

/-- The value of a binary operator on two values; both must be numbers. -/
def BinaryOp.combine (op : BinaryOp) (column : Nat) : Value → Value → Except EvalFault Value
  | .number left, .number right => .ok (op.apply left right)
  | left, right => .error (.operands op column left.kind right.kind)

/-- Stores a value under a name; it must be a number. -/
def Store.assign (store : Store) (target : String) : Value → Evaluated
  | .number value => (.ok (.number value), store.set target value)
  | .bool _ => (.error (.assignment target), store)

def Expr.eval : Expr → Store → Evaluated
  | .number value, store => (.ok (.number value), store)
  | .var name column, store =>
    match store.get? name with
    | some value => (.ok (.number value), store)
    | none => (.error (.unbound name column), store)
  | .neg operand, store =>
    match operand.eval store with
    | (.ok (.number value), store) => (.ok (.number (-value)), store)
    | (.ok (.bool _), store) => (.error .negation, store)
    | (.error fault, store) => (.error fault, store)
  | .binary op column left right, store =>
    match left.eval store with
    | (.error fault, store) => (.error fault, store)
    | (.ok leftValue, store) =>
      match right.eval store with
      | (.error fault, store) => (.error fault, store)
      | (.ok rightValue, store) => (op.combine column leftValue rightValue, store)
  | .assign target value, store =>
    match value.eval store with
    | (.error fault, store) => (.error fault, store)
    | (.ok value, store) => store.assign target value

def Clause.eval (clause : Clause) (store : Store) : Evaluated :=
  match clause.tree with
  | .ok expr => expr.eval store
  | .error fault => (.error (.clause clause.source fault), store)

end SceneScript
