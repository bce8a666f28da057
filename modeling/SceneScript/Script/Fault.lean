import SceneScript.Script.Command

/-!
# Why a statement is no command
-/

set_option autoImplicit false

namespace SceneScript.Script

def maxLoopNesting : Nat := 64

/-- Reasons why a statement is no command. The texts are the statement, or the
statement without its semicolon. -/
inductive StatementFault where
  /-- A loop whose header or body has the wrong form. -/
  | malformedLoop (statement : String)
  /-- A loop inside too many others. -/
  | loopTooDeep
  /-- A statement without a semicolon at its end. -/
  | unterminated (statement : String)
  /-- A call without one pair of parentheses around its arguments. -/
  | malformedCall (body : String)
  /-- A call with the wrong count of arguments. -/
  | wrongArity (method : Method) (given : Nat) (body : String)
  /-- Neither a call of a known method nor an assignment. -/
  | unknown (body : String)
deriving Repr, DecidableEq

def StatementFault.message : StatementFault → String
  | .malformedLoop statement => "invalid for loop syntax: " ++ statement
  | .loopTooDeep => "for loops nested deeper than " ++ Nat.repr maxLoopNesting ++ " levels"
  | .unterminated statement => "command must end with `;`: " ++ statement
  | .malformedCall body => "malformed call: " ++ body
  | .wrongArity method given body =>
    "object." ++ method.word ++ " expects " ++ Nat.repr method.arity ++ " arguments, got " ++
      Nat.repr given ++ ": " ++ body
  | .unknown body => "unknown command: " ++ body

/-- Whether the fault lies in the form of a loop, not in the wording of a command. -/
def StatementFault.isStructural : StatementFault → Bool
  | .malformedLoop _ => true
  | .loopTooDeep => true
  | _ => false

end SceneScript.Script
