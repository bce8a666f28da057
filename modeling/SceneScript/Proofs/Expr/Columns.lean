import SceneScript.Expr.Eval
import SceneScript.Proofs.Expr.Acceptance
import SceneScript.Proofs.Expr.LongestMatch

/-!
# Columns

Columns are for messages only. A text that stands further to the right has the same
tokens with other columns, these have the same derivations, and a tree with other columns
has the same value and assigns the same.
-/

set_option autoImplicit false

namespace SceneScript

open SceneScript.Text

/-! ## Other columns -/

def Token.mapColumn (move : Nat → Nat) (token : Token) : Token :=
  { token with column := move token.column }

def Tokens.mapColumns (move : Nat → Nat) (tokens : Tokens) : Tokens :=
  ⟨tokens.list.map (Token.mapColumn move), move tokens.endColumn⟩

def ClauseFault.mapColumn (move : Nat → Nat) (fault : ClauseFault) : ClauseFault :=
  { fault with column := move fault.column }

def Expr.mapColumns (move : Nat → Nat) : Expr → Expr
  | .number value => .number value
  | .var name column => .var name (move column)
  | .neg operand => .neg (operand.mapColumns move)
  | .binary op column left right =>
    .binary op (move column) (left.mapColumns move) (right.mapColumns move)
  | .assign target value => .assign target (value.mapColumns move)

def EvalFault.mapColumn (move : Nat → Nat) : EvalFault → EvalFault
  | .unbound name column => .unbound name (move column)
  | .operands op column left right => .operands op (move column) left right
  | fault => fault

/-! ## Tokens -/

theorem Tokens.readFrom_add (distance column : Nat) (text : List Char) :
    readFrom (column + distance) text =
      ((readFrom column text).map (mapColumns (· + distance))).mapError
        (ClauseFault.mapColumn (· + distance)) := by
  fun_induction readFrom column text with
  | case1 column text start ended =>
      rw [Tokens.readFrom_of_nil _ ended, Nat.add_right_comm]
      rfl
  | case2 column text start first rest skipped reason failed =>
      rw [Tokens.readFrom_of_cons _ skipped, failed, Nat.add_right_comm]
      rfl
  | case3 column text start first rest skipped lexeme more found fault failed ih =>
      have next : start + distance + 1 + more = start + 1 + more + distance := by omega
      have place : column + distance + (text.takeWhile isAsciiBlank).length = start + distance :=
        Nat.add_right_comm ..
      simp only [Tokens.readFrom_of_cons _ skipped, found, place, next, ih, failed]
      rfl
  | case4 column text start first rest skipped lexeme more found tokens behind ih =>
      have next : start + distance + 1 + more = start + 1 + more + distance := by omega
      have place : column + distance + (text.takeWhile isAsciiBlank).length = start + distance :=
        Nat.add_right_comm ..
      simp only [Tokens.readFrom_of_cons _ skipped, found, place, next, ih, behind]
      rfl

theorem Token.map_sub_map_add (distance : Nat) (tokens : List Token) :
    (tokens.map (mapColumn (· + distance))).map (mapColumn (· - distance)) = tokens := by
  rw [List.map_map]
  refine (List.map_congr_left fun token _ => ?_).trans (List.map_id tokens)
  simp only [Function.comp_apply, mapColumn, Nat.add_sub_cancel, id]

/-! ## Derivations -/

theorem Derives.mapColumns {symbol : Nonterminal} {tokens : List Token} {tree : Expr}
    {nesting operators : Nat} (derived : Derives symbol tokens tree nesting operators)
    (move : Nat → Nat) :
    Derives symbol (tokens.map (Token.mapColumn move)) (tree.mapColumns move) nesting
      operators := by
  induction derived with
  | number => exact .number
  | name => exact .name
  | parentheses _ ih =>
      rw [List.map_append]
      exact .parentheses ih
  | minus _ ih => exact .minus ih
  | primary _ ih => exact .primary ih
  | operand _ ih => exact .operand ih
  | joined member _ _ leftIH rightIH =>
      rw [List.map_append]
      exact .joined member leftIH rightIH
  | equality _ ih => exact .equality ih
  | assignment _ ih => exact .assignment ih

/-! ## Values -/

theorem Expr.eval_mapColumns (move : Nat → Nat) (tree : Expr) (store : Store) :
    (tree.mapColumns move).eval store =
      ((tree.eval store).1.mapError (EvalFault.mapColumn move), (tree.eval store).2) := by
  induction tree generalizing store with
  | number value => rfl
  | var name column =>
      simp only [mapColumns, eval]
      cases store.get? name <;> rfl
  | neg operand ih =>
      simp only [mapColumns, eval, ih]
      rcases operand.eval store with ⟨_ | ⟨_ | _⟩, after⟩ <;> rfl
  | binary op column left right leftIH rightIH =>
      simp only [mapColumns, eval, leftIH]
      rcases left.eval store with ⟨_ | leftValue, middle⟩
      · rfl
      · simp only [Except.mapError, rightIH]
        rcases right.eval middle with ⟨_ | rightValue, after⟩
        · rfl
        · cases leftValue <;> cases rightValue <;> rfl
  | assign target value ih =>
      simp only [mapColumns, eval, ih]
      rcases value.eval store with ⟨_ | ⟨_ | _⟩, after⟩ <;> rfl

end SceneScript
