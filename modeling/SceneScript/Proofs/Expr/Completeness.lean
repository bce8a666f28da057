import SceneScript.Expr.Parser
import SceneScript.Proofs.Expr.Grammar

/-!
# What the grammar derives is read

A derivation whose nesting fits the room and whose operators fit the count left is
read back: the reader of its nonterminal takes exactly its tokens, gives its tree
and uses up exactly its operators. The tokens behind it must not be a continuation
of it.

A chain of operators cannot be read by reading its left part alone, since the
operator behind the left part continues it. So for the levels of binary operators
the statement is about a reader that has the left part behind it and goes on.
-/

set_option autoImplicit false

namespace SceneScript

/-- The reader of a nonterminal. -/
def Reader.of (inner : Option Inner) : Nonterminal → Reader
  | .clause => clause inner
  | .level .equality => equality inner
  | .level .comparison =>
      chain (chain (chain (unary inner) .multiplicative) .additive) .comparison
  | .level .additive => chain (chain (unary inner) .multiplicative) .additive
  | .level .multiplicative => chain (unary inner) .multiplicative
  | .unary => unary inner
  | .primary => primary inner

theorem Reader.of_level (inner : Option Inner) (precedence : Precedence) :
    Reader.of inner (.level precedence) = chain (of inner precedence.operand) precedence := by
  cases precedence <;> rfl

/-- The reader takes the tokens off the front, gives the tree and uses up the
operators. -/
def Reader.Takes (reader : Reader) (tokens : List Token) (tree : Expr) (operators : Nat)
    (rest : List Token) : Prop :=
  ∀ endColumn left, reader ⟨tokens ++ rest, endColumn, operators + left⟩ =
    .ok (tree, ⟨rest, endColumn, left⟩)

/-- A chain takes the tokens off the front and goes on with the tree as its left
operand, with steps enough for the operators left. -/
def Reader.TakesOn (operand : Reader) (precedence : Precedence) (tokens : List Token)
    (tree : Expr) (operators : Nat) (rest : List Token) : Prop :=
  ∀ endColumn left, ∃ steps, left ≤ steps ∧
    chain operand precedence ⟨tokens ++ rest, endColumn, operators + left⟩ =
      chainFrom operand precedence steps tree ⟨rest, endColumn, left⟩

namespace Reader

/-! ## One step of each reader -/

theorem takes_parentheses {room : Nat} {inner rest : List Token} {tree : Expr}
    {operators first last : Nat}
    (taken : (clause (Inner.withRoom room)).Takes inner tree operators (⟨.closing, last⟩ :: rest)) :
    (primary (Inner.withRoom (room + 1))).Takes
      (⟨.opening, first⟩ :: inner ++ [⟨.closing, last⟩]) tree operators rest := by
  intro endColumn left
  have inside := taken endColumn left
  simp only [primary, descend, Inner.withRoom, Cursor.moveTo, List.cons_append,
    List.append_assoc, List.nil_append, inside]

theorem takes_minus {room : Nat} {operand rest : List Token} {tree : Expr}
    {operators column : Nat}
    (taken : (unary (Inner.withRoom room)).Takes operand tree operators rest) :
    (unary (Inner.withRoom (room + 1))).Takes (⟨.operator .sub, column⟩ :: operand) (.neg tree)
      (operators + 1) rest := by
  intro endColumn left
  have inside := taken endColumn left
  have count : operators + 1 + left = operators + left + 1 := by omega
  rw [unary]
  simp only [descend, Inner.withRoom, Cursor.moveTo, Cursor.countOperator, List.cons_append,
    count, inside]

theorem takes_primary {inner : Option Inner} {tokens rest : List Token} {tree : Expr}
    {operators : Nat} (taken : (primary inner).Takes tokens tree operators rest)
    (notMinus : ∀ column, (tokens ++ rest).head? ≠ some ⟨.operator .sub, column⟩) :
    (unary inner).Takes tokens tree operators rest := by
  intro endColumn left
  rw [unary]
  split
  · rename_i column more begins
    simp only at begins
    exact absurd (by rw [begins, List.head?_cons]) (notMinus column)
  · exact taken endColumn left

theorem takes_assignment {room : Nat} {value rest : List Token} {tree : Expr} {target : String}
    {operators first second : Nat}
    (taken : (clause (Inner.withRoom room)).Takes value tree operators rest) :
    (clause (Inner.withRoom (room + 1))).Takes
      (⟨.name target, first⟩ :: ⟨.assign, second⟩ :: value) (.assign target tree)
      (operators + 1) rest := by
  intro endColumn left
  have inside := taken endColumn left
  have count : operators + 1 + left = operators + left + 1 := by omega
  rw [clause]
  simp only [descend, Inner.withRoom, Cursor.moveTo, Cursor.countOperator,
    List.cons_append, count, inside]

theorem takes_equality {inner : Option Inner} {tokens rest : List Token} {tree : Expr}
    {operators : Nat} (taken : (equality inner).Takes tokens tree operators rest)
    (plain : ∀ target first second more,
      tokens ++ rest ≠ ⟨.name target, first⟩ :: ⟨.assign, second⟩ :: more) :
    (clause inner).Takes tokens tree operators rest := by
  intro endColumn left
  rw [clause]
  split
  · rename_i target first second more begins
    exact absurd begins (plain target first second more)
  · exact taken endColumn left

/-! ## Chains -/

theorem takesOn_operand {operand : Reader} {precedence : Precedence} {tokens rest : List Token}
    {tree : Expr} {operators : Nat} (taken : operand.Takes tokens tree operators rest) :
    operand.TakesOn precedence tokens tree operators rest := by
  intro endColumn left
  refine ⟨left, Nat.le_refl left, ?_⟩
  simp only [chain, taken endColumn left]

/-- A chain that has come to an operator of its level reads it with its right
operand. One step is left for it because one operator is. -/
theorem takesOn_joined {operand : Reader} {op : BinaryOp} {column : Nat}
    {left right rest : List Token} {leftTree rightTree : Expr} {leftOperators rightOperators : Nat}
    (leftTaken : operand.TakesOn op.precedence left leftTree leftOperators
      (⟨.operator op, column⟩ :: (right ++ rest)))
    (rightTaken : operand.Takes right rightTree rightOperators rest) :
    operand.TakesOn op.precedence (left ++ ⟨.operator op, column⟩ :: right)
      (.binary op column leftTree rightTree) (leftOperators + rightOperators + 1) rest := by
  intro endColumn remaining
  obtain ⟨steps, enough, onward⟩ := leftTaken endColumn (rightOperators + remaining + 1)
  obtain ⟨fewer, rfl⟩ : ∃ fewer, steps = fewer + 1 := ⟨steps - 1, by omega⟩
  refine ⟨fewer, by omega, ?_⟩
  have count : leftOperators + rightOperators + 1 + remaining =
      leftOperators + (rightOperators + remaining + 1) := by omega
  rw [count, List.append_assoc, List.cons_append, onward]
  rw [chainFrom]
  simp only [operator?, if_true, Cursor.moveTo, Cursor.countOperator,
    rightTaken endColumn remaining]

theorem takes_level {operand : Reader} {precedence : Precedence} {tokens rest : List Token}
    {tree : Expr} {operators : Nat} (taken : operand.TakesOn precedence tokens tree operators rest)
    (ends : EndsLevel precedence.rank rest) :
    (chain operand precedence).Takes tokens tree operators rest := by
  intro endColumn left
  obtain ⟨steps, _, onward⟩ := taken endColumn left
  have stops : operator? precedence rest = none := by
    unfold operator?
    split
    · rename_i op column more
      have looser := ends op column rfl
      rw [if_neg]
      intro same
      rw [same] at looser
      exact Nat.lt_irrefl _ looser
    · rfl
  rw [onward, chainFrom]
  simp only [stops]

end Reader

/-! ## Derivations -/

/-- The two readings of a derivation that fits the room: up to its end, and, for a
level of binary operators, up to an operator that continues it. -/
theorem Derives.takes_and_takesOn {symbol : Nonterminal} {tokens : List Token} {tree : Expr}
    {nesting operators : Nat} (derived : Derives symbol tokens tree nesting operators)
    {room : Nat} (fits : nesting ≤ room) :
    (∀ rest, symbol.EndsBefore rest →
      (Reader.of (Inner.withRoom room) symbol).Takes tokens tree operators rest) ∧
    ∀ precedence, symbol = .level precedence → ∀ rest, EndsLevel (precedence.rank + 1) rest →
      (Reader.of (Inner.withRoom room) precedence.operand).TakesOn precedence tokens tree
        operators rest := by
  induction derived generalizing room with
  | number =>
      refine ⟨fun rest _ endColumn left => ?_, fun precedence same => by cases same⟩
      rw [Nat.zero_add]
      rfl
  | name =>
      refine ⟨fun rest _ endColumn left => ?_, fun precedence same => by cases same⟩
      rw [Nat.zero_add]
      rfl
  | parentheses _ ih =>
      refine ⟨fun rest _ => ?_, fun precedence same => by cases same⟩
      obtain ⟨less, rfl⟩ : ∃ less, room = less + 1 := ⟨room - 1, by omega⟩
      exact Reader.takes_parentheses
        ((ih (Nat.le_of_succ_le_succ fits)).1 _ (clause_endsBefore_closing _ rest))
  | minus _ ih =>
      refine ⟨fun rest _ => ?_, fun precedence same => by cases same⟩
      obtain ⟨less, rfl⟩ : ∃ less, room = less + 1 := ⟨room - 1, by omega⟩
      exact Reader.takes_minus ((ih (Nat.le_of_succ_le_succ fits)).1 rest trivial)
  | primary inner ih =>
      refine ⟨fun rest _ => ?_, fun precedence same => by cases same⟩
      exact Reader.takes_primary ((ih fits).1 rest trivial)
        (fun column => inner.head_primary column rest)
  | @operand precedence _ _ _ _ _ ih =>
      have onward : ∀ rest, EndsLevel (precedence.rank + 1) rest →
          (Reader.of (Inner.withRoom room) precedence.operand).TakesOn precedence _ _ _ rest :=
        fun rest ends => Reader.takesOn_operand
          ((ih fits).1 rest (Precedence.operand_endsBefore ends))
      refine ⟨fun rest ends => ?_, fun other same => by cases same; exact onward⟩
      rw [Reader.of_level]
      exact Reader.takes_level (onward rest (ends.mono (Nat.le_succ _))) ends
  | @joined precedence op column _ right _ _ _ _ _ _ member _ _ leftIH rightIH =>
      obtain rfl := Precedence.mem_operators_iff.mp member
      have leftFits := Nat.le_trans (Nat.le_max_left _ _) fits
      have rightFits := Nat.le_trans (Nat.le_max_right _ _) fits
      -- The left part is read up to the operator, which continues its level.
      have onward : ∀ rest, EndsLevel (op.precedence.rank + 1) rest →
          (Reader.of (Inner.withRoom room) op.precedence.operand).TakesOn op.precedence _ _ _ rest :=
        fun rest ends => Reader.takesOn_joined
          ((leftIH leftFits).2 op.precedence rfl _ (endsLevel_operator op column (right ++ rest)))
          ((rightIH rightFits).1 rest (Precedence.operand_endsBefore ends))
      refine ⟨fun rest ends => ?_, fun other same => by cases same; exact onward⟩
      rw [Reader.of_level]
      exact Reader.takes_level (onward rest (ends.mono (Nat.le_succ _))) ends
  | equality inner ih =>
      refine ⟨fun rest ends => ?_, fun precedence same => by cases same⟩
      exact Reader.takes_equality ((ih fits).1 rest ends.1)
        (fun target first second more begins =>
          ends.2 second (inner.assign_head (by simp) begins))
  | assignment _ ih =>
      refine ⟨fun rest ends => ?_, fun precedence same => by cases same⟩
      obtain ⟨less, rfl⟩ : ∃ less, room = less + 1 := ⟨room - 1, by omega⟩
      exact Reader.takes_assignment ((ih (Nat.le_of_succ_le_succ fits)).1 rest ends)

theorem Derives.takes_clause {tokens : List Token} {tree : Expr} {nesting operators room : Nat}
    (derived : Derives .clause tokens tree nesting operators) (fits : nesting ≤ room) :
    (Reader.clause (Inner.withRoom room)).Takes tokens tree operators [] :=
  (derived.takes_and_takesOn fits).1 [] clause_endsBefore_nil

/-- Tokens have one tree and one count of operators: the grammar is not ambiguous. -/
theorem Derives.unique {tokens : List Token} {left right : Expr}
    {leftNesting rightNesting leftOperators rightOperators : Nat}
    (leftDerived : Derives .clause tokens left leftNesting leftOperators)
    (rightDerived : Derives .clause tokens right rightNesting rightOperators) :
    left = right ∧ leftOperators = rightOperators := by
  have leftTaken := leftDerived.takes_clause (Nat.le_max_left leftNesting rightNesting)
    0 rightOperators
  have rightTaken := rightDerived.takes_clause (Nat.le_max_right leftNesting rightNesting)
    0 leftOperators
  rw [Nat.add_comm, leftTaken] at rightTaken
  simp only [Except.ok.injEq, Prod.mk.injEq, Cursor.mk.injEq, true_and] at rightTaken
  exact ⟨rightTaken.1, rightTaken.2.symm⟩

end SceneScript
