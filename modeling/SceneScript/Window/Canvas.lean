import SceneScript.Palette
import SceneScript.Session

/-!
# The canvas

Objects are painted in the order of the scene on a background of fixed size. The
screen has single precision: places and sizes are rounded to it first, and every
further step is rounded again.
-/

set_option autoImplicit false

namespace SceneScript

/-- Filled figures on the canvas. -/
inductive Figure where
  | rect (left top right bottom : Float32) (fill : Rgba)
  | circle (x y radius : Float32) (fill : Rgba)
  | polygon (points : List (Float32 × Float32)) (fill : Rgba)

namespace Canvas

def width : Float := 800

def height : Float := 600

/-- Whether a point lies on the canvas. -/
def contains (point : Float × Float) : Bool :=
  0 ≤ point.1 && point.1 ≤ width && 0 ≤ point.2 && point.2 ≤ height

/-- The place of the top left corner of the canvas. -/
def origin : Float32 × Float32 := (0, 0)

def background : Figure :=
  .rect origin.1 origin.2 (origin.1 + width.toFloat32) (origin.2 + height.toFloat32)
    (Palette.solid 245 245 245)

/-- The figure of an object. A shape without a name is painted as a square. -/
def figure (object : Object) : Figure :=
  let fill := Palette.fill object.color object.opacity
  let x := object.x.toFloat32
  let y := object.y.toFloat32
  let size := object.extent.toFloat32
  let place (px py : Float32) := (origin.1 + px, origin.2 + py)
  match object.shape with
  | .circle =>
    let center := place (x + size / 2) (y + size / 2)
    .circle center.1 center.2 (size / 2) fill
  | .triangle =>
    .polygon [place (x + size / 2) y, place x (y + size), place (x + size) (y + size)] fill
  | _ =>
    let corner := place x y
    .rect corner.1 corner.2 (corner.1 + size) (corner.2 + size) fill

/-- All figures of a session, the background first. -/
def figures (session : Session) : List Figure :=
  background :: session.scene.toList.map fun entry => figure entry.2

end Canvas

end SceneScript
