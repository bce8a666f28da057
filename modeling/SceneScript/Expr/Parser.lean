import SceneScript.Expr.Fault

/-!
# From tokens to trees

    clause         := NAME '=' clause | equality
    equality       := comparison (('==' | '!=') comparison)*
    comparison     := additive (('<' | '<=' | '>' | '>=') additive)*
    additive       := multiplicative (('+' | '-') multiplicative)*
    multiplicative := unary (('*' | '/' | '%') unary)*
    unary          := '-' unary | primary
    primary        := NUMBER | NAME | '(' clause ')'

Two limits bound a clause: parentheses, unary minuses and assignments nest at
most `maxNesting` deep, and there are at most `maxOperators` operators. The limits
also bound the recursion. What stands one step further in is read by a parser
with one step less of room, and a chain of operators of one precedence goes on for
at most as many steps as there are operators left.
-/

set_option autoImplicit false

namespace SceneScript

/-- The deepest nesting of parentheses, unary minuses and assignments. -/
def maxNesting : Nat := 128

def maxOperators : Nat := 1024

/-- A place in a clause: the tokens from there on and the count of operators that
may still be used. -/
structure Cursor where
  tokens : List Token
  endColumn : Nat
  operatorsLeft : Nat

namespace Cursor

/-- The column of the next token, or of the end of the clause. -/
def column (cursor : Cursor) : Nat :=
  (cursor.tokens.head?.map Token.column).getD cursor.endColumn

/-- The same clause from another token on. -/
def moveTo (cursor : Cursor) (tokens : List Token) : Cursor :=
  { cursor with tokens }

/-- The fault that something else than the next token was expected. -/
def unexpected (cursor : Cursor) (expected : Expected) : ClauseFault :=
  ⟨cursor.column, .unexpected expected (cursor.tokens.head?.map Token.lexeme)⟩

def countOperator (cursor : Cursor) : Except ClauseFault Cursor :=
  match cursor.operatorsLeft with
  | 0 => .error ⟨cursor.column, .tooManyOperators⟩
  | left + 1 => .ok { cursor with operatorsLeft := left }

end Cursor

/-- Reads an expression and gives the place behind it. -/
abbrev Reader := Cursor → Except ClauseFault (Expr × Cursor)

/-- The readers for what stands one step further in. -/
structure Inner where
  clause : Reader
  unary : Reader

namespace Reader

/-- Goes one step further in, if there is room. -/
def descend (inner : Option Inner) (reader : Inner → Reader) : Reader := fun cursor =>
  match inner with
  | none => .error ⟨cursor.column, .nestedTooDeeply⟩
  | some inner => reader inner cursor

/-- A number, a name or a clause in parentheses. -/
def primary (inner : Option Inner) : Reader := fun cursor =>
  match cursor.tokens with
  | ⟨.number value, _⟩ :: rest => .ok (.number value, cursor.moveTo rest)
  | ⟨.name name, column⟩ :: rest => .ok (.var name column, cursor.moveTo rest)
  | ⟨.opening, _⟩ :: rest =>
    match descend inner Inner.clause (cursor.moveTo rest) with
    | .error fault => .error fault
    | .ok (expr, cursor) =>
      match cursor.tokens with
      | ⟨.closing, _⟩ :: rest => .ok (expr, cursor.moveTo rest)
      | _ => .error (cursor.unexpected .closing)
  | _ => .error (cursor.unexpected .expression)

/-- Any number of minus signs in front of a primary expression. -/
def unary (inner : Option Inner) : Reader := fun cursor =>
  match cursor.tokens with
  | ⟨.operator .sub, _⟩ :: rest =>
    match (cursor.moveTo rest).countOperator with
    | .error fault => .error fault
    | .ok cursor =>
      match descend inner Inner.unary cursor with
      | .error fault => .error fault
      | .ok (operand, cursor) => .ok (.neg operand, cursor)
  | _ => primary inner cursor

/-- The next token as an operator of the given precedence, and the tokens behind
it. -/
def operator? (precedence : Precedence) : List Token → Option (BinaryOp × Nat × List Token)
  | ⟨.operator op, column⟩ :: rest =>
    if op.precedence = precedence then some (op, column, rest) else none
  | _ => none

/-- Goes on with operators of one precedence, joining to the left. The count of
steps is at least the count of operators left, so when the steps are used up the
operators are too. -/
def chainFrom (operand : Reader) (precedence : Precedence) : Nat → Expr → Reader
  | steps, left, cursor =>
    match operator? precedence cursor.tokens with
    | none => .ok (left, cursor)
    | some (op, column, rest) =>
      match steps with
      | 0 => .error ⟨(cursor.moveTo rest).column, .tooManyOperators⟩
      | steps + 1 =>
        match (cursor.moveTo rest).countOperator with
        | .error fault => .error fault
        | .ok cursor =>
          match operand cursor with
          | .error fault => .error fault
          | .ok (right, cursor) =>
            chainFrom operand precedence steps (.binary op column left right) cursor

/-- Operands joined by operators of one precedence. -/
def chain (operand : Reader) (precedence : Precedence) : Reader := fun cursor =>
  match operand cursor with
  | .error fault => .error fault
  | .ok (left, cursor) => chainFrom operand precedence cursor.operatorsLeft left cursor

/-- Operators of every precedence, from the tightest to the loosest. -/
def equality (inner : Option Inner) : Reader :=
  let multiplicative := chain (unary inner) .multiplicative
  let additive := chain multiplicative .additive
  let comparison := chain additive .comparison
  chain comparison .equality

/-- An assignment if a name and an equals sign come first, else an expression
without one. -/
def clause (inner : Option Inner) : Reader := fun cursor =>
  match cursor.tokens with
  | ⟨.name target, _⟩ :: ⟨.assign, _⟩ :: rest =>
    match (cursor.moveTo rest).countOperator with
    | .error fault => .error fault
    | .ok cursor =>
      match descend inner Inner.clause cursor with
      | .error fault => .error fault
      | .ok (value, cursor) => .ok (.assign target value, cursor)
  | _ => equality inner cursor

end Reader

/-- The readers for what stands further in, with room for the given count of
steps. -/
def Inner.withRoom : Nat → Option Inner
  | 0 => none
  | room + 1 =>
    let inner := Inner.withRoom room
    some ⟨Reader.clause inner, Reader.unary inner⟩

/-- The tree of a clause. All tokens must be used. -/
def Expr.ofTokens (tokens : Tokens) : Except ClauseFault Expr :=
  match Reader.clause (Inner.withRoom maxNesting) ⟨tokens.list, tokens.endColumn, maxOperators⟩ with
  | .error fault => .error fault
  | .ok (expr, cursor) =>
    if cursor.tokens.isEmpty then .ok expr else .error (cursor.unexpected .nothing)

end SceneScript
