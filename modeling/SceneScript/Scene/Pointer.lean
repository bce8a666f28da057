import SceneScript.Scene.Basic

/-!
# Pointing and nudging

A point selects the first object of the scene whose box contains it. A nudge moves
an object along one axis.
-/

set_option autoImplicit false

namespace SceneScript

/-- Directions on the screen. -/
inductive Direction where
  | up
  | down
  | left
  | right
deriving Repr, DecidableEq

/-- The step of unit length in a direction; `y` grows downwards. -/
def Direction.delta : Direction → Float × Float
  | .up => (0, -1)
  | .down => (0, 1)
  | .left => (-1, 0)
  | .right => (1, 0)

def Object.nudge (direction : Direction) (distance : Float) (object : Object) : Object :=
  { object with
    x := object.x + direction.delta.1 * distance
    y := object.y + direction.delta.2 * distance }

/-- The name of the first object whose box contains a point. -/
def Scene.hit? (scene : Scene) (x y : Float) : Option String :=
  (scene.toList.find? fun entry => entry.2.contains x y).map Prod.fst

end SceneScript
