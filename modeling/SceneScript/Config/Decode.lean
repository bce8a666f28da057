import SceneScript.Config.Basic
import SceneScript.Json.Reader

/-!
# Settings from JSON

Any subset of the settings may be given, and unknown keys are passed over. A
setting of the wrong type makes the whole configuration invalid.
-/

set_option autoImplicit false

namespace SceneScript

/-- Decodes a field that may be missing. -/
def decodeField {α : Type} (decode : Json → Option α) (default : α) : Option Json → Option α
  | none => some default
  | some json => decode json

/-- Decodes the fields of a new object. -/
def ObjectDefaults.ofJson? (json : Json) : Option ObjectDefaults := do
  let stock : ObjectDefaults := {}
  match ← json.fields? ["color", "opacity", "size", "x", "y", "collidable"] with
  | [color, opacity, size, x, y, collidable] =>
    return {
      color := ← decodeField Json.toText? stock.color color
      opacity := ← decodeField Json.toFloat? stock.opacity opacity
      size := ← decodeField Json.toFloat? stock.size size
      x := ← decodeField Json.toFloat? stock.x x
      y := ← decodeField Json.toFloat? stock.y y
      collidable := ← decodeField Json.toBool? stock.collidable collidable }
  | _ => none

def InputConfig.ofJson? (json : Json) : Option InputConfig := do
  let stock : InputConfig := {}
  match ← json.fields? ["speed"] with
  | [speed] => return { speed := ← decodeField Json.toFloat? stock.speed speed }
  | _ => none

def PulseConfig.ofJson? (json : Json) : Option PulseConfig := do
  let stock : PulseConfig := {}
  match ← json.fields? ["step", "opacity_base", "opacity_amp", "size_base", "size_amp"] with
  | [step, opacityBase, opacityAmp, sizeBase, sizeAmp] =>
    return {
      step := ← decodeField Json.toFloat? stock.step step
      opacityBase := ← decodeField Json.toFloat? stock.opacityBase opacityBase
      opacityAmp := ← decodeField Json.toFloat? stock.opacityAmp opacityAmp
      sizeBase := ← decodeField Json.toFloat? stock.sizeBase sizeBase
      sizeAmp := ← decodeField Json.toFloat? stock.sizeAmp sizeAmp }
  | _ => none

def Config.ofJson? (json : Json) : Option Config := do
  let stock : Config := {}
  match ← json.fields? ["defaults", "input", "pulse"] with
  | [defaults, input, pulse] =>
    return {
      defaults := ← decodeField ObjectDefaults.ofJson? stock.defaults defaults
      input := ← decodeField InputConfig.ofJson? stock.input input
      pulse := ← decodeField PulseConfig.ofJson? stock.pulse pulse }
  | _ => none

def Config.ofText? (text : String) : Option Config := do
  Config.ofJson? (← Json.parse? text.toList)

end SceneScript
