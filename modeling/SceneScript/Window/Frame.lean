import SceneScript.Window.Canvas
import SceneScript.Window.View

/-!
# Frames of the window

In each frame the session ticks first, with the click that was waiting and with the
keys of the frame. Then the window is drawn from top to bottom, and each part of it
reacts to its own events while it is drawn: the editor, the button that loads the
script, the tabs, and the tab in front. What is drawn above therefore shows the
state before an event further down.
-/

set_option autoImplicit false

namespace SceneScript

/-- Keys. All keys that move nothing are alike. -/
inductive Key where
  | arrowUp | arrowDown | arrowLeft | arrowRight
  | w | a | s | d
  | other
deriving Repr, DecidableEq

/-- The keys that move the selected object, in the order in which they act. -/
def keyBindings : List (Key × Direction) :=
  [(.arrowUp, .up), (.w, .up), (.arrowDown, .down), (.s, .down),
    (.arrowLeft, .left), (.a, .left), (.arrowRight, .right), (.d, .right)]

/-- What happens in one frame. -/
structure FrameEvents where
  /-- The keys that are pressed. -/
  keys : List Key := []
  /-- Whether the editor has the keyboard. -/
  editorFocused : Bool := false
  /-- The new text of the editor, if it is changed. -/
  edited : Option String := none
  /-- Whether the button that loads the script is clicked. -/
  runClicked : Bool := false
  /-- The tab that is clicked. -/
  tabClicked : Option Tab := none
  /-- The row of the scene table that is clicked, from 0. -/
  rowClicked : Option Nat := none
  /-- The point of the canvas that is clicked. -/
  canvasClicked : Option (Float × Float) := none

/-- The nudges of a frame: none while the editor has the keyboard. -/
def FrameEvents.nudges (events : FrameEvents) : List Direction :=
  if events.editorFocused then []
  else (keyBindings.filter fun binding => events.keys.contains binding.1).map Prod.snd

namespace Window

/-- Lets the session tick. The click that was waiting is used up. -/
def tick (events : FrameEvents) (window : Window) : Window :=
  { window with
    session := window.session.tick { click := window.pendingClick, nudges := events.nudges }
    pendingClick := none }

/-- Takes over a changed text of the editor. -/
def edit (edited : Option String) (window : Window) : Window :=
  { window with source := edited.getD window.source }

/-- Brings a clicked tab to the front. -/
def switchTab (clicked : Option Tab) (window : Window) : Window :=
  { window with tab := clicked.getD window.tab }

/-- The name in a row of the scene table. -/
def rowName? (window : Window) (row : Nat) : Option String :=
  window.session.scene.names[row]?

/-- Lets the tab in front react to a click: a row of the scene table selects its
object, and a point of the canvas waits for the next frame. -/
def clickContent (events : FrameEvents) (window : Window) : Window :=
  match window.tab with
  | .scene =>
    match events.rowClicked.bind window.rowName? with
    | some name => { window with session := window.session.select name }
    | none => window
  | .canvas =>
    match events.canvasClicked with
    | some point => { window with pendingClick := some point }
    | none => window
  | _ => window

/-- One frame: the window afterwards and the texts above its tabs. `none` if a loop
of a loaded script needs more passes than the bound allows. -/
def frame (bound : Nat) (events : FrameEvents) (window : Window) : Option (Window × List Label) :=
  let window := (window.tick events).edit events.edited
  let status := View.statusBar window.session
  match if events.runClicked then window.reload bound else some window with
  | none => none
  | some window =>
    let header := status ++ View.tabBar window.session
    some ((window.switchTab events.tabClicked).clickContent events, header)

/-- What the tab in front shows. -/
inductive Content where
  | labels (labels : List Label)
  | figures (figures : List Figure)

/-- The content of the tab in front. -/
def content (window : Window) : Content :=
  match window.tab with
  | .console => .labels (View.console window.session)
  | .scene => .labels (View.scene window.session)
  | .store => .labels (View.store window.session)
  | .canvas => .figures (Canvas.figures window.session)

end Window

end SceneScript
