import SceneScript.Decimal.Basic

/-!
# Shortest decimals

Of all decimals that read back as a given number, the shortest is one with the
fewest digits, and of those the nearest. It is found on the coarsest power of ten
that has a multiple among the numbers that round to the given one.
-/

set_option autoImplicit false

namespace SceneScript.Decimal

/-- The numbers that round to a given one, as numerators over one denominator.
The ends belong to it exactly if `closed` holds. -/
structure Interval where
  low : Nat
  middle : Nat
  high : Nat
  denominator : Nat
  closed : Bool

/-- The numbers that round to a positive number: from half-way to the number
below up to half-way to the number above. The number below a power of two is only
half as far away. The two ends round to the number if its mantissa is even. -/
def Interval.ofDyadic (number : Dyadic) : Interval :=
  let quarter (multiple : Nat) : Nat × Nat := Dyadic.ratio ⟨multiple, number.exponent - 2⟩
  let nearBelow :=
    number.mantissa = Binary64.hiddenBit && Binary64.leastExponent < number.exponent
  { low := (quarter (4 * number.mantissa - if nearBelow then 1 else 2)).1
    middle := (quarter (4 * number.mantissa)).1
    high := (quarter (4 * number.mantissa + 2)).1
    denominator := (quarter 1).2
    closed := number.mantissa % 2 = 0 }

/-- The multiple of `10 ^ scale` in the interval that is nearest to its middle,
if there is one; of two equally near ones the greater. -/
def Interval.multiple? (interval : Interval) (scale : Int) : Option Decimal :=
  let unit := tenTo scale * interval.denominator
  let place (numerator : Nat) := numerator * tenTo (-scale)
  let within (smaller larger : Nat) : Bool :=
    if interval.closed then smaller ≤ larger else smaller < larger
  let below := place interval.middle / unit
  let belowFits := within (place interval.low) (below * unit)
  let aboveFits := within ((below + 1) * unit) (place interval.high)
  let aboveNearer := (below + 1) * unit - place interval.middle ≤ place interval.middle - below * unit
  if aboveFits && (aboveNearer || !belowFits) then some ⟨below + 1, scale⟩
  else if belowFits then some ⟨below, scale⟩
  else none

/-- The first multiple found on the grids `10 ^ scale`, `10 ^ (scale - 1)`, … -/
def Interval.firstMultiple (interval : Interval) : Nat → Int → Decimal
  | 0, scale => ⟨interval.middle * tenTo (-scale) / (tenTo scale * interval.denominator), scale⟩
  | grids + 1, scale =>
    match interval.multiple? scale with
    | some decimal => decimal
    | none => interval.firstMultiple grids (scale - 1)

/-- A scale whose power of ten exceeds the number. -/
def scaleAbove (number : Dyadic) : Int :=
  (Nat.log2 number.mantissa + 1 + number.exponent) * 30103 / 100000 + 1

/-- The shortest decimal that reads back as a positive number. Seventeen digits
always suffice, so twenty grids are enough. -/
def shortest (number : Dyadic) : Decimal :=
  (Interval.ofDyadic number).firstMultiple 20 (scaleAbove number)

end SceneScript.Decimal
