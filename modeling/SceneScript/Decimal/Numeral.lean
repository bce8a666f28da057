import SceneScript.Decimal.Basic

/-!
# Numerals

A numeral is a text for a number: digits with an optional point among or beside
them, and an optional exponent. `numeral` finds the longest numeral at the start
of a text and `read?` gives its value. A mantissa without any digit is found like
the others, but it has no value.
-/

set_option autoImplicit false

namespace SceneScript.Decimal

/-- The exponent at the start of a text: `e` or `E`, an optional sign and at least
one digit. Empty if there is none. -/
def exponentPart : List Char → List Char
  | [] => []
  | mark :: rest =>
    let sign := (rest.take 1).filter fun c => c = '+' || c = '-'
    let digits := (rest.drop sign.length).takeWhile Char.isDigit
    if (mark = 'e' || mark = 'E') && digits ≠ [] then mark :: (sign ++ digits) else []

/-- The mantissa at the start of a text: digits, and if a point follows, the point
and the digits behind it. -/
def mantissaPart (text : List Char) : List Char :=
  let whole := text.takeWhile Char.isDigit
  match text.dropWhile Char.isDigit with
  | '.' :: rest => whole ++ '.' :: rest.takeWhile Char.isDigit
  | _ => whole

/-- The numeral at the start of a text. -/
def numeral (text : List Char) : List Char :=
  let mantissa := mantissaPart text
  mantissa ++ exponentPart (text.drop mantissa.length)

/-- The value of an exponent without its mark; no exponent counts as zero. -/
def exponentValue : List Char → Int
  | '-' :: digits => -(ofDigits digits : Int)
  | '+' :: digits => ofDigits digits
  | digits => ofDigits digits

/-- The value of a numeral; `none` if its mantissa has no digit. -/
def read? (text : List Char) : Option Decimal :=
  let mantissa := mantissaPart text
  let whole := mantissa.takeWhile Char.isDigit
  let fraction := (mantissa.drop whole.length).drop 1
  if whole ++ fraction = [] then none
  else
    let exponent := exponentValue ((text.drop mantissa.length).drop 1)
    some ⟨ofDigits (whole ++ fraction), exponent - fraction.length⟩

end SceneScript.Decimal
