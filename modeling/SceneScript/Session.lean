import SceneScript.Scene.Collision
import SceneScript.Scene.Pointer
import SceneScript.Scene.Pulse
import SceneScript.Script.Run

/-!
# Sessions

A session holds what a script has made and what has happened since. Loading a
script forgets everything but the settings and the clock of the pulse. Each frame
takes the input, advances the pulse and looks for collisions, in this order.
-/

set_option autoImplicit false

namespace SceneScript

/-- The state between frames. -/
structure Session where
  config : Config
  store : Store
  scene : Scene
  selection : Option String
  diagnostics : Array Fault
  /-- The clock of the pulse. -/
  time : Float

/-- What the user did since the last frame. The click comes first. -/
structure FrameInput where
  click : Option (Float × Float) := none
  nudges : List Direction := []

namespace Session

/-- A session in which nothing has happened. -/
def new (config : Config) : Session where
  config
  store := .empty
  scene := .empty
  selection := none
  diagnostics := #[]
  time := 0

def world (session : Session) : World :=
  ⟨session.store, session.scene, session.diagnostics⟩

/-- A session after commands have changed the world. -/
def withWorld (session : Session) (world : World) : Session :=
  { session with
    store := world.store
    scene := world.scene
    diagnostics := world.diagnostics }

/-- Runs commands; `none` if a loop needs more passes than the bound allows. -/
def execute (bound : Nat) (commands : List Command) (session : Session) : Option Session :=
  match Command.runAll session.config.defaults bound commands session.world with
  | none => none
  | some world => some (session.withWorld world)

/-- A session that has forgotten everything but its settings and its clock. -/
def reset (session : Session) : Session :=
  { new session.config with time := session.time }

/-- Loads a script: forgets, runs the script and selects the first object. -/
def load (bound : Nat) (source : String) (session : Session) : Option Session :=
  let program := Program.ofText source.toList
  let fresh := { session.reset with diagnostics := program.faults.toArray }
  match fresh.execute bound program.commands with
  | none => none
  | some session => some { session with selection := session.scene.firstName? }

/-! ## Selection -/

def selected? (session : Session) : Option Object :=
  session.selection.bind session.scene.get?

/-- Selects the object of a name, if there is one. -/
def select (name : String) (session : Session) : Session :=
  if session.scene.contains name then { session with selection := some name } else session

/-- Selects the first object that contains a point, if there is one. -/
def selectAt (x y : Float) (session : Session) : Session :=
  match session.scene.hit? x y with
  | some name => { session with selection := some name }
  | none => session

def modifySelected (change : Object → Object) (session : Session) : Session :=
  match session.selection with
  | some name => { session with scene := session.scene.modify name change }
  | none => session

/-- Moves the selected object by one nudge. -/
def nudge (session : Session) (direction : Direction) : Session :=
  session.modifySelected (Object.nudge direction session.config.input.speed)

/-! ## Frames -/

def collide (session : Session) : Session :=
  { session with scene := session.scene.collide }

/-- Advances the clock and lets the selected object pulse. -/
def pulse (session : Session) : Session :=
  let time := session.config.pulse.advance session.time
  modifySelected (session.config.pulse.paint time) { session with time }

def apply (input : FrameInput) (session : Session) : Session :=
  let clicked := match input.click with
    | some (x, y) => session.selectAt x y
    | none => session
  input.nudges.foldl nudge clicked

def tick (input : FrameInput) (session : Session) : Session :=
  (session.apply input).pulse.collide

def ticks (input : FrameInput) : Nat → Session → Session
  | 0, session => session
  | count + 1, session => ticks input count (session.tick input)

end Session

end SceneScript
