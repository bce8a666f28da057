import SceneScript.Decimal.Basic
import SceneScript.Expr.Eval
import SceneScript.Text.Blank

/-!
# Coordinates

A coordinate is the integer at the start of a text; what follows its digits is
passed over, so `12px` is twelve.
-/

set_option autoImplicit false

namespace SceneScript.Script

open SceneScript.Text

/-- The integer at the start of a text, behind blanks and at most one sign. -/
def readCoordinate (text : String) : Except EvalFault Float :=
  let (negative, unsigned) := Decimal.splitSign (trimStart text.toList)
  let digits := unsigned.takeWhile Char.isDigit
  if digits = [] then .error (.coordinate text)
  else .ok (Decimal.toFloat negative ⟨Decimal.ofDigits digits, 0⟩)

end SceneScript.Script
