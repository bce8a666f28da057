import SceneScript.Decimal.Binary

/-!
# Remainder of a division

The remainder has the sign of the dividend and is exact: it needs no rounding,
because it is a multiple of the smaller of the two units and less than the
divisor.
-/

set_option autoImplicit false

namespace SceneScript

/-- The remainder of two nonnegative numbers, the divisor not zero. -/
def Dyadic.remainder (dividend divisor : Dyadic) : Dyadic :=
  let unit := min dividend.exponent divisor.exponent
  let scaled (number : Dyadic) := number.mantissa * twoTo (number.exponent - unit)
  ⟨scaled dividend % scaled divisor, unit⟩

/-- What is left of the dividend after taking away the divisor a whole number of
times, towards zero. Not a number if the dividend is infinite or the divisor
zero; a finite dividend is its own remainder by an infinite divisor. -/
def remainder (dividend divisor : Float) : Float :=
  match Binary64.ofFloat dividend, Binary64.ofFloat divisor with
  | .finite negative left, .finite _ right =>
    if right.mantissa = 0 then 0.0 / 0.0
    else
      let rest := (left.remainder right).ratio
      Binary64.nearest negative rest.1 rest.2
  | .finite .., .infinite _ => dividend
  | _, _ => 0.0 / 0.0

end SceneScript
