import SceneScript.Decimal.Spelling

/-!
# Fixed places

Numbers with a fixed count of decimal places are rounded from their exact binary
value; a half goes to the even last digit. A negative number keeps its sign also
when it rounds to zero.
-/

set_option autoImplicit false

namespace SceneScript.Decimal

/-- The integer `units` with the point before its last `places` digits, and at
least one digit before the point. -/
def withPlaces (places units : Nat) : List Char :=
  let digits := toDigits units
  let padded := List.replicate (places + 1 - digits.length) '0' ++ digits
  if places = 0 then padded
  else padded.take (padded.length - places) ++ '.' :: padded.drop (padded.length - places)

/-- Writes a number with a fixed count of decimal places. -/
def fixed (places : Nat) (number : Float) : String :=
  match Binary64.ofFloat number with
  | .finite negative magnitude =>
    let units := Binary64.roundDiv (magnitude.ratio.1 * tenTo places) magnitude.ratio.2
    String.ofList (signed negative (withPlaces places units))
  | _ => exact.write number

end SceneScript.Decimal
