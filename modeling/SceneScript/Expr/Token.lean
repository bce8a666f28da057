import SceneScript.Decimal.Spelling
import SceneScript.Expr.Basic

/-!
# Tokens of a clause

Columns count the bytes of a clause, from one. All tokens are ASCII, so that
within a clause that consists of tokens and blanks a character is a byte.
-/

set_option autoImplicit false

namespace SceneScript

/-- What a token is, apart from where it stands. The minus sign is one token,
whether it turns out to be unary or binary. -/
inductive Lexeme where
  | number (value : Float)
  | name (text : String)
  | operator (op : BinaryOp)
  | assign
  | opening
  | closing

/-- A lexeme and the column at which it starts. -/
structure Token where
  lexeme : Lexeme
  column : Nat

/-- The tokens of a clause and the column one past its end. -/
structure Tokens where
  list : List Token
  endColumn : Nat

/-- The tokens of a clause with one more token in front. -/
def Tokens.push (token : Token) (tokens : Tokens) : Tokens :=
  { tokens with list := token :: tokens.list }

def Lexeme.describe : Lexeme → String
  | .number value => "number `" ++ Decimal.exact.write value ++ "`"
  | .name text => "identifier `" ++ text ++ "`"
  | .operator op => "`" ++ op.symbol ++ "`"
  | .assign => "`=`"
  | .opening => "`(`"
  | .closing => "`)`"

end SceneScript
