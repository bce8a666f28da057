/-!
# Numbers as exact binary fractions

A number of a script is a binary floating point number of 64 bits. Everything
that must be exact about it, namely reading a decimal, writing a decimal and the
remainder of a division, is computed on the fraction `mantissa · 2 ^ exponent`
that its bits stand for, in integer arithmetic.
-/

set_option autoImplicit false

namespace SceneScript

/-- A power of two; one if the exponent is negative. -/
def twoTo (exponent : Int) : Nat :=
  Nat.pow 2 exponent.toNat

/-- The nonnegative number `mantissa · 2 ^ exponent`. -/
structure Dyadic where
  mantissa : Nat
  exponent : Int

namespace Dyadic

/-- Numerator and denominator of the number, not reduced. -/
def ratio (number : Dyadic) : Nat × Nat :=
  (number.mantissa * twoTo number.exponent, twoTo (-number.exponent))

end Dyadic

/-- What the bits of a 64-bit floating point number stand for. -/
inductive Binary64 where
  | notANumber
  | infinite (negative : Bool)
  | finite (negative : Bool) (magnitude : Dyadic)

namespace Binary64

def signBit : Nat := 0x8000000000000000

/-- The mantissa of a normal number lies between this and its double. -/
def hiddenBit : Nat := 0x10000000000000

/-- The exponent field of infinity and of what is not a number. -/
def specialField : Nat := 0x7FF

/-- The exponent of the least positive number, and of every other subnormal. -/
def leastExponent : Int := -1074

/-- Takes the bits of a number apart. -/
def ofFloat (number : Float) : Binary64 :=
  let bits := number.toBits.toNat
  let negative : Bool := signBit ≤ bits
  let field : Nat := bits / hiddenBit % (specialField + 1)
  let fraction := bits % hiddenBit
  if field = specialField then
    if fraction = 0 then .infinite negative else .notANumber
  else if field = 0 then
    .finite negative ⟨fraction, leastExponent⟩
  else
    .finite negative ⟨hiddenBit + fraction, leastExponent + (field - 1 : Nat)⟩

/-- Divides and rounds to the nearest integer; a half goes to the even one. -/
def roundDiv (numerator denominator : Nat) : Nat :=
  let quotient := numerator / denominator
  let twice := 2 * (numerator % denominator)
  if twice < denominator then quotient
  else if denominator < twice then quotient + 1
  else quotient + quotient % 2

/-- The exponent at which the mantissa of `numerator / denominator` has 53 bits,
or the least exponent if that is greater. -/
def exponentOf (numerator denominator : Nat) : Int :=
  let guess : Int := (Nat.log2 numerator : Int) - Nat.log2 denominator - 52
  let short : Bool := numerator * twoTo (-guess) < hiddenBit * (denominator * twoTo guess)
  max (if short then guess - 1 else guess) leastExponent

/-- Puts a sign in front of the bits of a nonnegative number. -/
def withSign (negative : Bool) (magnitude : Nat) : Float :=
  Float.ofBits (UInt64.ofNat (if negative then signBit + magnitude else magnitude))

def infinityBits : Nat := specialField * hiddenBit

/-- The number nearest to `numerator / denominator`, a half going to the even
mantissa; infinity if the fraction is too large. Adjacent numbers have adjacent
bits, so a mantissa that rounds up to 54 bits carries into the exponent. -/
def nearest (negative : Bool) (numerator denominator : Nat) : Float :=
  if numerator = 0 then withSign negative 0
  else
    let exponent := exponentOf numerator denominator
    let mantissa :=
      roundDiv (numerator * twoTo (-exponent)) (denominator * twoTo exponent)
    withSign negative
      (min ((exponent - leastExponent).toNat * hiddenBit + mantissa) infinityBits)

end Binary64

end SceneScript
