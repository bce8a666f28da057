import SceneScript.Scene.Basic

/-!
# Collisions

A collision pass looks at every pair of objects once, in the order of the scene.
Two collidable objects whose boxes meet turn red; any other pair loses its red,
also if a script gave it. A later pair can undo what an earlier one did.
-/

set_option autoImplicit false

namespace SceneScript

def collisionColor : String := "red"

/-- The color that takes the place of the collision color. -/
def restColor : String := "black"

namespace Object

/-- Whether the boxes of two objects meet; a common edge is enough. -/
def overlaps (first second : Object) : Bool :=
  let a := first.bounds
  let b := second.bounds
  !(a.right < b.left || b.right < a.left || a.bottom < b.top || b.bottom < a.top)

def hits (first second : Object) : Bool :=
  first.collidable && second.collidable && first.overlaps second

/-- Paints an object in the color of a collision. -/
def redden (object : Object) : Object :=
  { object with color := collisionColor }

/-- Takes the color of a collision from an object. -/
def calm (object : Object) : Object :=
  if object.color = collisionColor then { object with color := restColor } else object

/-- What becomes of two objects when they are compared. -/
def meet (first second : Object) : Object × Object :=
  if first.hits second then (first.redden, second.redden) else (first.calm, second.calm)

end Object

namespace Scene

/-- Compares one object with each of the entries in turn. -/
def meetAll (first : Object) : List (String × Object) → Object × List (String × Object)
  | [] => (first, [])
  | (name, other) :: rest =>
    let pair := first.meet other
    let others := meetAll pair.1 rest
    (others.1, (name, pair.2) :: others.2)

theorem length_meetAll (first : Object) (entries : List (String × Object)) :
    (meetAll first entries).2.length = entries.length := by
  induction entries generalizing first with
  | nil => rfl
  | cons entry rest ih => simp [meetAll, ih]

/-- Compares every pair of entries once: the first with all others, then the
others among themselves. -/
def collisionPass : List (String × Object) → List (String × Object)
  | [] => []
  | (name, object) :: rest =>
    let met := meetAll object rest
    (name, met.1) :: collisionPass met.2
termination_by entries => entries.length
decreasing_by simp [length_meetAll]

/-- Runs a collision pass over a scene. Names and positions stay as they are. -/
def collide (scene : Scene) : Scene :=
  { scene with entries := (collisionPass scene.toList).toArray }

end Scene

end SceneScript
