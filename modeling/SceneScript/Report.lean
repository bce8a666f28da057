import SceneScript.Decimal.Fixed
import SceneScript.Session

/-!
# Reports

A report lists the diagnostics, the objects and the variables of a session, each
group below a line with its count. A star marks the selected object.
-/

set_option autoImplicit false

namespace SceneScript

def Object.describe (object : Object) : String :=
  object.shape.token ++ " at (" ++ Decimal.spliced.write object.x ++ ", " ++
    Decimal.spliced.write object.y ++ ") size=" ++ Decimal.fixed 2 object.size ++ " color=" ++
    object.color ++ " opacity=" ++ Decimal.fixed 2 object.opacity ++ " collidable=" ++
    Value.boolText object.collidable

namespace Session

def diagnosticLines (session : Session) : List String :=
  ("diagnostics: " ++ Nat.repr session.diagnostics.size) ::
    session.diagnostics.toList.map fun fault => "  " ++ fault.text

def objectLine (session : Session) (entry : String × Object) : String :=
  (if session.selection = some entry.1 then "*" else " ") ++ " " ++ entry.1 ++ ": " ++
    entry.2.describe

def objectLines (session : Session) : List String :=
  ("objects: " ++ Nat.repr session.scene.size) :: session.scene.toList.map session.objectLine

def variableLines (session : Session) : List String :=
  ("variables: " ++ Nat.repr session.store.size) ::
    session.store.toList.map fun binding =>
      "  " ++ binding.1 ++ " = " ++ Decimal.spliced.write binding.2

def reportLines (session : Session) : List String :=
  session.diagnosticLines ++ session.objectLines ++ session.variableLines

/-- The text of a report: every line ends with a line feed. -/
def report (session : Session) : String :=
  String.join (session.reportLines.map (· ++ "\n"))

end Session

end SceneScript
