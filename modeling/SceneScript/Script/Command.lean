import SceneScript.Expr.Clause
import SceneScript.Scene.Object

/-!
# Commands

A command is what a statement says. The arguments of a call are kept as texts:
variables in names are replaced, and coordinates and truth values are read, when
the command runs.
-/

set_option autoImplicit false

namespace SceneScript

/-- What can be done with an object by a call. -/
inductive Method where
  | create
  | color
  | move
  | collidable
deriving Repr, DecidableEq

namespace Method

def word : Method → String
  | .create => "create"
  | .color => "color"
  | .move => "move"
  | .collidable => "collidable"

def ofWord? (word : String) : Option Method :=
  [Method.create, .color, .move, .collidable].find? fun method => method.word = word

/-- The count of arguments of a method. -/
def arity : Method → Nat
  | .move => 3
  | _ => 2

end Method

/-- Commands of a script. -/
inductive Command where
  | create (shape : Shape) (name : String)
  | color (name color : String)
  | move (name x y : String)
  | collidable (name value : String)
  | assign (target : String) (value : Clause)
  | loop (init condition increment : Clause) (body : List Command)

end SceneScript
