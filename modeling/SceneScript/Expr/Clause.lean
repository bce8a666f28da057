import SceneScript.Expr.Lexer
import SceneScript.Expr.Parser

/-!
# Clauses

A clause is the right-hand side of an assignment or a part of a loop header. It
keeps its text beside its tree. A clause without a tree is no fault of the
statement that holds it: the fault shows only when the clause is evaluated.
-/

set_option autoImplicit false

namespace SceneScript

/-- A trimmed text and what reading it gave. -/
structure Clause where
  source : String
  tree : Except ClauseFault Expr

def Expr.ofText (text : List Char) : Except ClauseFault Expr :=
  match Tokens.read text with
  | .error fault => .error fault
  | .ok tokens => Expr.ofTokens tokens

def Clause.ofText (text : List Char) : Clause :=
  let source := Text.trim text
  ⟨String.ofList source, Expr.ofText source⟩

end SceneScript
