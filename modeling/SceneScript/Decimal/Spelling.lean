import SceneScript.Decimal.Shortest

/-!
# Written numbers

A number is written with its shortest digits, never with an exponent. Two
spellings differ only in the numbers that have no digits of their own and in the
sign of zero: `spliced` is what a script sees when a number becomes part of a
name, `exact` is what messages show.
-/

set_option autoImplicit false

namespace SceneScript.Decimal

/-- The digits of a decimal with the point in place and no exponent. -/
def plain (number : Decimal) : List Char :=
  let digits := toDigits number.digits
  let after := (-number.scale).toNat
  if after = 0 then digits ++ List.replicate number.scale.toNat '0'
  else if after < digits.length then
    digits.take (digits.length - after) ++ '.' :: digits.drop (digits.length - after)
  else '0' :: '.' :: (List.replicate (after - digits.length) '0' ++ digits)

/-- How the numbers without digits of their own are written. -/
structure Spelling where
  notANumber : String
  infinity : String
  signedZero : Bool

/-- The spelling of messages: infinity is `inf`, and negative zero keeps its sign. -/
def exact : Spelling := ⟨"NaN", "inf", true⟩

/-- The spelling of a number that becomes part of a name: zero has no sign. -/
def spliced : Spelling := ⟨"NaN", "Infinity", false⟩

/-- Puts a minus sign in front of a negative number. -/
def signed (negative : Bool) (text : List Char) : List Char :=
  if negative then '-' :: text else text

def Spelling.write (spelling : Spelling) (number : Float) : String :=
  match Binary64.ofFloat number with
  | .notANumber => spelling.notANumber
  | .infinite negative => String.ofList (signed negative spelling.infinity.toList)
  | .finite negative magnitude =>
    if magnitude.mantissa = 0 then
      String.ofList (signed (negative && spelling.signedZero) ['0'])
    else String.ofList (signed negative (plain (shortest magnitude)))

end SceneScript.Decimal
