import SceneScript.Window.Frame

/-!
# Gestures

What a user does at the window takes one or more frames. A click takes three: one
in which the pointer arrives, one in which the button goes down, and one in which
it goes up again and the click takes effect.
-/

set_option autoImplicit false

namespace SceneScript

/-- Where a click goes. -/
inductive ClickTarget where
  | run
  | tab (tab : Tab)
  | row (row : Nat)
  | canvas (x y : Float)
  | editor

/-- What a user does. -/
inductive Gesture where
  /-- Presses keys in one frame. -/
  | keys (keys : List Key)
  | click (target : ClickTarget)
  /-- Replaces the text of the editor between two frames. -/
  | edit (source : String)

/-- A window in use. -/
structure Desk where
  window : Window
  /-- Whether the editor has the keyboard. -/
  editorFocused : Bool
  /-- The texts above the tabs in the latest frame. -/
  header : Option (List Label)

namespace ClickTarget

/-- The events of the frame in which a click takes effect. Beside the canvas there is
nothing to click. -/
def events : ClickTarget → FrameEvents
  | .run => { runClicked := true }
  | .tab front => { tabClicked := some front }
  | .row index => { rowClicked := some index }
  | .canvas x y => { canvasClicked := (some (x, y)).filter Canvas.contains }
  | .editor => {}

/-- Whether a click gives the keyboard to the editor; every other click takes it
away. -/
def isEditor : ClickTarget → Bool
  | .editor => true
  | _ => false

end ClickTarget

namespace Desk

def open? (bound : Nat) (config : Config) (source : String) : Option Desk :=
  (Window.open? bound config source).map fun window => ⟨window, false, none⟩

def frame (bound : Nat) (events : FrameEvents) (desk : Desk) : Option Desk :=
  (desk.window.frame bound events).map fun (window, header) =>
    { desk with window, header := some header }

/-- The events of each frame of a gesture. -/
def frames (desk : Desk) : Gesture → List FrameEvents
  | .keys keys => [{ keys, editorFocused := desk.editorFocused }]
  | .click target => [{}, {}, target.events]
  | .edit _ => []

def perform (bound : Nat) (gesture : Gesture) (desk : Desk) : Option Desk :=
  let passed := (desk.frames gesture).foldlM (fun desk events => desk.frame bound events) desk
  passed.map fun desk =>
    match gesture with
    | .keys _ => desk
    | .click target => { desk with editorFocused := target.isEditor }
    | .edit source => { desk with window := desk.window.edit (some source) }

end Desk

end SceneScript
