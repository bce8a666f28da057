import SceneScript.Decimal.Fixed
import SceneScript.Palette
import SceneScript.Window.Basic

/-!
# Texts of the window

The status bar and the tab bar are on top of every tab. The tabs for the console,
the scene and the variables consist of texts, row by row.
-/

set_option autoImplicit false

namespace SceneScript

/-- A text and the color that is asked for, if any. -/
structure Label where
  text : String
  color : Option Rgba := none

namespace View

def gray : Rgba := Palette.solid 160 160 160

def headingColor : Rgba := Palette.solid 255 255 255

def colored (text : String) (color : Rgba) : Label :=
  ⟨text, some color⟩

def plain (text : String) : Label :=
  ⟨text, none⟩

def heading (text : String) : Label :=
  colored text headingColor

/-- The status: whether there are diagnostics, what is selected, and the button that
loads the script. -/
def statusBar (session : Session) : List Label :=
  let count := session.diagnostics.size
  let status :=
    if count = 0 then colored "✓  no errors" (Palette.solid 80 200 80)
    else colored ("✗  " ++ Nat.repr count ++ " error(s)") (Palette.solid 220 80 80)
  let selected := session.selection.map fun name => colored ("selected: " ++ name) gray
  status :: (selected.toList ++ [plain "run"])

def tabBar (session : Session) : List Label :=
  let count := session.diagnostics.size
  let console := if count = 0 then "Console" else "Console (" ++ Nat.repr count ++ ")"
  [plain console, plain "Scene", plain "Variables", plain "Canvas"]

/-- The color of a diagnostic, by its kind. -/
def diagnosticColor : Fault.Kind → Rgba
  | .structural => Palette.solid 220 80 80
  | .unknownCommand => Palette.solid 220 180 60
  | .evaluation => Palette.solid 230 130 70

def console (session : Session) : List Label :=
  if session.diagnostics.isEmpty then [colored "No errors." gray]
  else session.diagnostics.toList.map fun fault => colored fault.text (diagnosticColor fault.kind)

/-- The color of the name of a shape. -/
def shapeColor (shape : Shape) : Rgba :=
  if shape.isKnown then Palette.solid 180 140 255 else Palette.solid 220 180 60

def sceneRow (entry : String × Object) : List Label :=
  let object := entry.2
  [plain entry.1, colored object.shape.token (shapeColor object.shape),
    plain (Decimal.spliced.write object.x), plain (Decimal.spliced.write object.y),
    plain (Decimal.fixed 1 object.size), plain object.color,
    plain (Decimal.fixed 2 object.opacity), plain (Value.boolText object.collidable)]

/-- The table of the objects of a session. -/
def scene (session : Session) : List Label :=
  if session.scene.toList.isEmpty then [colored "No objects." gray]
  else
    ["name", "shape", "x", "y", "size", "color", "opacity", "collidable"].map heading ++
      session.scene.toList.flatMap sceneRow

def variableRow (binding : String × Float) : List Label :=
  [plain binding.1, colored (Decimal.spliced.write binding.2) (Palette.solid 210 210 170)]

/-- The table of the variables of a session. -/
def store (session : Session) : List Label :=
  if session.store.toList.isEmpty then [colored "No variables." gray]
  else ["name", "value"].map heading ++ session.store.toList.flatMap variableRow

end View

end SceneScript
