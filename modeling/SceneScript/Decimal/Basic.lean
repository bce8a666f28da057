import SceneScript.Decimal.Binary

/-!
# Decimal numbers

A decimal number is a string of digits and a scale. `Decimal.toFloat` rounds it
correctly to the nearest number, whatever the number of digits and however large
the scale.
-/

set_option autoImplicit false

namespace SceneScript

/-- A power of ten; one if the exponent is negative. -/
def tenTo (exponent : Int) : Nat :=
  Nat.pow 10 exponent.toNat

/-- The nonnegative number `digits · 10 ^ scale`. -/
structure Decimal where
  digits : Nat
  scale : Int

namespace Decimal

def digitValue (c : Char) : Nat :=
  c.toNat - '0'.toNat

/-- The number that a string of decimal digits stands for. -/
def ofDigits (digits : List Char) : Nat :=
  digits.foldl (fun value c => 10 * value + digitValue c) 0

/-- Whether a text starts with a minus sign, and the text behind its sign. -/
def splitSign : List Char → Bool × List Char
  | '-' :: rest => (true, rest)
  | '+' :: rest => (false, rest)
  | text => (false, text)

/-- The digits of a number, without leading zeros. -/
def toDigits (value : Nat) : List Char :=
  Nat.toDigits 10 value

/-- The nearest number, with the given sign. A number of at least `10 ^ 310` is
infinite and one below `10 ^ (-330)` is zero, so that a scale of any size is
decided without computing the power of ten. -/
def toFloat (negative : Bool) (number : Decimal) : Float :=
  if number.digits = 0 then Binary64.withSign negative 0
  else
    let places : Int := (toDigits number.digits).length + number.scale
    if 310 < places then Binary64.withSign negative Binary64.infinityBits
    else if places < -330 then Binary64.withSign negative 0
    else
      Binary64.nearest negative (number.digits * tenTo number.scale) (tenTo (-number.scale))

end Decimal

end SceneScript
