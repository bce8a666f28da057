import SceneScript.Text.Blank
import SceneScript.Text.Hex

/-!
# Colors

The color of an object is a token. A token is a name of the table, in any case, or
`#` with three or six hexadecimal digits; any other token stands for black.
-/

set_option autoImplicit false

namespace SceneScript

/-- A color by its three channels, each from 0 to 255. -/
structure Rgb where
  red : Nat
  green : Nat
  blue : Nat
deriving Repr, DecidableEq

/-- A color with an alpha channel, the other channels being multiplied by it. -/
structure Rgba where
  red : Nat
  green : Nat
  blue : Nat
  alpha : Nat
deriving Repr, DecidableEq

namespace Palette

def black : Rgb := ⟨0, 0, 0⟩

def named : List (String × Rgb) :=
  [
    ("black", ⟨0, 0, 0⟩),
    ("white", ⟨255, 255, 255⟩),
    ("red", ⟨255, 0, 0⟩),
    ("green", ⟨0, 128, 0⟩),
    ("blue", ⟨0, 0, 255⟩),
    ("yellow", ⟨255, 255, 0⟩),
    ("orange", ⟨255, 165, 0⟩),
    ("purple", ⟨128, 0, 128⟩),
    ("pink", ⟨255, 192, 203⟩),
    ("gray", ⟨128, 128, 128⟩),
    ("grey", ⟨128, 128, 128⟩),
    ("silver", ⟨192, 192, 192⟩),
    ("brown", ⟨165, 42, 42⟩),
    ("cyan", ⟨0, 255, 255⟩),
    ("aqua", ⟨0, 255, 255⟩),
    ("magenta", ⟨255, 0, 255⟩),
    ("fuchsia", ⟨255, 0, 255⟩),
    ("lime", ⟨0, 255, 0⟩),
    ("navy", ⟨0, 0, 128⟩),
    ("teal", ⟨0, 128, 128⟩),
    ("maroon", ⟨128, 0, 0⟩),
    ("olive", ⟨128, 128, 0⟩),
    ("gold", ⟨255, 215, 0⟩),
    ("indigo", ⟨75, 0, 130⟩),
    ("violet", ⟨238, 130, 238⟩),
    ("coral", ⟨255, 127, 80⟩),
    ("salmon", ⟨250, 128, 114⟩),
    ("crimson", ⟨220, 20, 60⟩),
    ("turquoise", ⟨64, 224, 208⟩),
    ("skyblue", ⟨135, 206, 235⟩),
    ("lightblue", ⟨173, 216, 230⟩),
    ("darkblue", ⟨0, 0, 139⟩),
    ("darkgreen", ⟨0, 100, 0⟩),
    ("darkred", ⟨139, 0, 0⟩),
    ("beige", ⟨245, 245, 220⟩),
    ("tan", ⟨210, 180, 140⟩),
    ("khaki", ⟨240, 230, 140⟩),
    ("chocolate", ⟨210, 105, 30⟩),
    ("lavender", ⟨230, 230, 250⟩)]

/-- The color of three or six hexadecimal digits. A single digit for a channel
counts as that digit twice. -/
def hexColor? (digits : List Char) : Option Rgb :=
  match digits.mapM Text.hexDigit? with
  | some [red, green, blue] => some ⟨17 * red, 17 * green, 17 * blue⟩
  | some [red, red', green, green', blue, blue'] =>
    some ⟨16 * red + red', 16 * green + green', 16 * blue + blue'⟩
  | _ => none

/-- The color of a name, in any case. -/
def namedColor? (name : List Char) : Option Rgb :=
  (named.find? fun entry => entry.1.toList = name.map Char.toLower).map Prod.snd

def rgb (token : String) : Rgb :=
  match Text.trim token.toList with
  | '#' :: digits => (hexColor? digits).getD black
  | name => (namedColor? name).getD black

/-- The alpha channel of an opacity, which is clamped to the range from 0 to 1. An
opacity that is not a number counts as 0. -/
def alpha (opacity : Float) : Nat :=
  let clamped := if opacity < 0 then 0 else if 1 < opacity then 1 else opacity
  (clamped * 255).round.toUInt8.toNat

/-- A channel multiplied by an alpha channel, rounded to the nearest integer. -/
def premultiply (channel alpha : Nat) : Nat :=
  (2 * channel * alpha + 255) / 510

def withAlpha (color : Rgb) (alpha : Nat) : Rgba :=
  ⟨premultiply color.red alpha, premultiply color.green alpha, premultiply color.blue alpha, alpha⟩

def solid (red green blue : Nat) : Rgba :=
  ⟨red, green, blue, 255⟩

/-- The color with which an object of a token and an opacity is filled. -/
def fill (token : String) (opacity : Float) : Rgba :=
  withAlpha (rgb token) (alpha opacity)

end Palette

end SceneScript
