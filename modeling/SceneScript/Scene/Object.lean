import SceneScript.Config.Basic

/-!
# Objects

An object is a shape with a place, a size and a look. Whatever the shape, it
occupies a square box whose top left corner is its place.
-/

set_option autoImplicit false

namespace SceneScript

/-- Shapes. A token that names no shape is kept as it is. -/
inductive Shape where
  | square
  | circle
  | triangle
  | unknown (token : String)
deriving Repr, DecidableEq

namespace Shape

/-- The shape that a token names. Case counts. -/
def ofToken (token : String) : Shape :=
  if token = "square" then .square
  else if token = "circle" then .circle
  else if token = "triangle" then .triangle
  else .unknown token

def token : Shape → String
  | .square => "square"
  | .circle => "circle"
  | .triangle => "triangle"
  | .unknown token => token

/-- Whether the shape is one of the three that have a name. -/
def isKnown : Shape → Bool
  | .unknown _ => false
  | _ => true

theorem token_ofToken (token : String) : (ofToken token).token = token := by
  unfold ofToken
  split
  · simp_all [Shape.token]
  split
  · simp_all [Shape.token]
  split
  · simp_all [Shape.token]
  · rfl

end Shape

/-- Objects of a scene. The color is a token that nothing checks. -/
structure Object where
  shape : Shape
  x : Float
  y : Float
  color : String
  opacity : Float
  size : Float
  collidable : Bool

/-- An upright rectangle; `y` grows downwards. -/
structure Bounds where
  left : Float
  top : Float
  right : Float
  bottom : Float

namespace Object

def new (shape : Shape) (defaults : ObjectDefaults) : Object where
  shape
  x := defaults.x
  y := defaults.y
  color := defaults.color
  opacity := defaults.opacity
  size := defaults.size
  collidable := defaults.collidable

/-- The edge length in place of a size that is zero or not a number. -/
def fallbackSize : Float := 50

/-- The edge length of the box of an object. -/
def extent (object : Object) : Float :=
  if object.size == 0 || object.size.isNaN then fallbackSize else object.size

def bounds (object : Object) : Bounds where
  left := object.x
  top := object.y
  right := object.x + object.extent
  bottom := object.y + object.extent

/-- Whether a point lies in the box of an object, edges included. -/
def contains (object : Object) (x y : Float) : Bool :=
  let box := object.bounds
  box.left ≤ x && x ≤ box.right && box.top ≤ y && y ≤ box.bottom

end Object

end SceneScript
