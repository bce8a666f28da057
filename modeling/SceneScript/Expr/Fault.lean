import SceneScript.Expr.Token

/-!
# Why a clause has no tree

A fault is a reason and the column to which it applies. The first fault in
reading order is the one that counts, so a clause has at most one.
-/

set_option autoImplicit false

namespace SceneScript

/-- What may stand at a place of a clause where something else was found. -/
inductive Expected where
  | expression
  | closing
  | nothing
deriving Repr, DecidableEq

/-- The expected item as messages show it. -/
def Expected.describe : Expected → String
  | .expression => "expression"
  | .closing => Lexeme.closing.describe
  | .nothing => "end of expression"

/-- Reasons why a clause has no tree. -/
inductive ClauseFault.Reason where
  /-- An exclamation mark without an equals sign behind it. -/
  | bareBang
  /-- A character that begins no token. -/
  | strayCharacter (character : Char)
  /-- A numeral without digits in its mantissa. -/
  | malformedNumber (text : String)
  /-- A token out of place, or, if none is given, the end of the clause. -/
  | unexpected (expected : Expected) (found : Option Lexeme)
  /-- Too many parentheses, unary minuses and assignments within each other. -/
  | nestedTooDeeply
  /-- Too many operators in one clause. -/
  | tooManyOperators

/-- A reason and the column to which it applies. -/
structure ClauseFault where
  column : Nat
  reason : ClauseFault.Reason

/-- The character that stands for the first byte of a character's encoding:
messages about stray characters speak of bytes. -/
def leadingByte (character : Char) : Char :=
  ((String.utf8EncodeChar character).head?.map fun byte => Char.ofNat byte.toNat).getD character

def ClauseFault.Reason.message : ClauseFault.Reason → String
  | .bareBang => "expected `!=`, bare `!` is not valid"
  | .strayCharacter character => "unexpected character `" ++ String.singleton (leadingByte character) ++ "`"
  | .malformedNumber text => "malformed number `" ++ text ++ "`"
  | .unexpected expected found =>
    "expected " ++ expected.describe ++ ", found " ++
      (found.map Lexeme.describe).getD Expected.nothing.describe
  | .nestedTooDeeply => "expression nested too deeply"
  | .tooManyOperators => "expression has too many operators"

/-- The wording of a fault: its column and its reason. -/
def ClauseFault.message (fault : ClauseFault) : String :=
  Nat.repr fault.column ++ ": " ++ fault.reason.message

end SceneScript
