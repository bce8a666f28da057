import SceneScript.Expr.Eval
import SceneScript.Script.Fault
import SceneScript.Script.Statement

/-!
# Diagnostics

Everything that can be wrong with a script, in one type. Each fault belongs to one
of three kinds, which tell how far it reaches: a structural fault ends the cutting
of a block or drops a loop, an unknown command drops one statement, and a fault of
evaluation stops one command or one loop.
-/

set_option autoImplicit false

namespace SceneScript

/-- Faults of a script. -/
inductive Fault where
  | cut (fault : Script.CutFault)
  | statement (fault : Script.StatementFault)
  | eval (fault : EvalFault)

namespace Fault

/-- Kinds of faults. -/
inductive Kind where
  | structural
  | unknownCommand
  | evaluation
deriving Repr, DecidableEq

def Kind.word : Kind → String
  | .structural => "syntax"
  | .unknownCommand => "unknown command"
  | .evaluation => "eval"

def kind : Fault → Kind
  | .cut _ => .structural
  | .statement fault => if fault.isStructural then .structural else .unknownCommand
  | .eval _ => .evaluation

def message : Fault → String
  | .cut fault => fault.message
  | .statement fault => fault.message
  | .eval fault => fault.message

/-- A fault as it is listed: its kind in brackets and its wording. -/
def text (fault : Fault) : String :=
  "[" ++ fault.kind.word ++ "] " ++ fault.message

end Fault

end SceneScript
