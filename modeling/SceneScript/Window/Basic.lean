import SceneScript.Demo
import SceneScript.Session

/-!
# The window

Beside a session the window holds the text of its editor, the tab in front, and a
click on the canvas that waits for the next frame.
-/

set_option autoImplicit false

namespace SceneScript

/-- The tabs of the window. -/
inductive Tab where
  | console
  | scene
  | store
  | canvas
deriving Repr, DecidableEq

/-- The state of the window between frames. -/
structure Window where
  /-- The text of the editor. -/
  source : String
  session : Session
  tab : Tab
  /-- A click on the canvas that no frame has taken yet. -/
  pendingClick : Option (Float × Float)

namespace Window

/-- Opens a window with a script, which is loaded at once. -/
def open? (bound : Nat) (config : Config) (source : String) : Option Window :=
  match (Session.new config).load bound source with
  | none => none
  | some session => some ⟨source, session, .canvas, none⟩

/-- Loads the script of the editor. The console comes to the front if there are
diagnostics. -/
def reload (bound : Nat) (window : Window) : Option Window :=
  match window.session.load bound window.source with
  | none => none
  | some session =>
    some { window with
      session
      pendingClick := none
      tab := if session.diagnostics.isEmpty then window.tab else .console }

end Window

end SceneScript
