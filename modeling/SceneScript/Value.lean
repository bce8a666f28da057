import SceneScript.Decimal.Spelling

/-!
# Values

An expression has a number or a truth value as its value. Only numbers can be
stored in variables and used as operands.
-/

set_option autoImplicit false

namespace SceneScript

/-- Values of expressions. -/
inductive Value where
  | number (value : Float)
  | bool (value : Bool)

namespace Value

/-- The types of values. -/
inductive Kind where
  | number
  | bool
deriving Repr, DecidableEq

def Kind.describe : Kind → String
  | .number => "number"
  | .bool => "bool"

def kind : Value → Kind
  | .number _ => .number
  | .bool _ => .bool

/-- Whether a value lets a loop go on: true, or a number that is neither zero nor
not a number. -/
def truthy : Value → Bool
  | .number value => value != 0.0 && !value.isNaN
  | .bool value => value

/-- A truth value as it is written. -/
def boolText (value : Bool) : String :=
  if value then "true" else "false"

def text : Value → String
  | .number value => Decimal.spliced.write value
  | .bool value => boolText value

end Value

end SceneScript
