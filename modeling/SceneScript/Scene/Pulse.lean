import SceneScript.Scene.Object

/-!
# The pulse of the selected object

A clock goes on by one step in each frame, whether or not an object is selected.
The selected object takes its opacity and size from the clock.
-/

set_option autoImplicit false

namespace SceneScript.PulseConfig

def advance (config : PulseConfig) (time : Float) : Float :=
  time + config.step

/-- An object with the opacity and size of a time. -/
def paint (config : PulseConfig) (time : Float) (object : Object) : Object :=
  { object with
    opacity := config.opacityBase + config.opacityAmp * time.sin
    size := config.sizeBase + config.sizeAmp * (time * 2).sin }

end SceneScript.PulseConfig
