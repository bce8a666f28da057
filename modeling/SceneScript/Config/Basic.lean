/-!
# Settings of a session

Three groups of settings: what a new object looks like, how far one nudge moves an
object, and how the selected object pulses.
-/

set_option autoImplicit false

namespace SceneScript

/-- The fields of a new object. -/
structure ObjectDefaults where
  color : String := "black"
  opacity : Float := 1
  size : Float := 50
  x : Float := 50
  y : Float := 50
  collidable : Bool := true

/-- How input moves objects. -/
structure InputConfig where
  /-- The distance of one nudge. -/
  speed : Float := 5

/-- At time `t`, the opacity is `opacityBase + opacityAmp * sin t` and the size is
`sizeBase + sizeAmp * sin (2 * t)`. The time goes on by `step` in each frame. -/
structure PulseConfig where
  step : Float := 0.05
  opacityBase : Float := 0.5
  opacityAmp : Float := 0.5
  sizeBase : Float := 40
  sizeAmp : Float := 10

/-- All settings of a session. -/
structure Config where
  defaults : ObjectDefaults := {}
  input : InputConfig := {}
  pulse : PulseConfig := {}

end SceneScript
