import SceneScript.Proofs.Expr.Completeness

/-!
# What is read is what the grammar derives

Whatever a reader gives, the tokens that it took have a derivation with that tree,
the nesting of the derivation fits the room, and its operators are those that were
used up. With the converse this makes the trees of clauses exactly the trees of
derivations within the limits.
-/

set_option autoImplicit false

namespace SceneScript

/-- A result of a reader from one place of a clause to another is backed by a
derivation that fits the room and accounts for the tokens and the operators in
between. -/
def Nonterminal.Reads (symbol : Nonterminal) (room : Nat) (tree : Expr)
    (cursor next : Cursor) : Prop :=
  ∃ tokens nesting operators, Derives symbol tokens tree nesting operators ∧ nesting ≤ room ∧
    cursor.tokens = tokens ++ next.tokens ∧ cursor.endColumn = next.endColumn ∧
    cursor.operatorsLeft = operators + next.operatorsLeft

/-- Every result of the reader is backed by a derivation. -/
def Reader.Sound (reader : Reader) (symbol : Nonterminal) (room : Nat) : Prop :=
  ∀ cursor tree next, reader cursor = .ok (tree, next) → symbol.Reads room tree cursor next

theorem Cursor.countOperator_ok {cursor next : Cursor} (counted : cursor.countOperator = .ok next) :
    next.tokens = cursor.tokens ∧ next.endColumn = cursor.endColumn ∧
      cursor.operatorsLeft = next.operatorsLeft + 1 := by
  unfold countOperator at counted
  split at counted
  · cases counted
  · rename_i left count
    cases counted
    exact ⟨rfl, rfl, count⟩

namespace Reader

/-- There is a step further in only if there is room, and one step less of room is
left there. -/
theorem descend_ok {room : Nat} {reader : Inner → Reader} {cursor next : Cursor} {tree : Expr}
    (result : descend (Inner.withRoom room) reader cursor = .ok (tree, next)) :
    ∃ less, room = less + 1 ∧
      reader ⟨clause (Inner.withRoom less), unary (Inner.withRoom less)⟩ cursor =
        .ok (tree, next) := by
  cases room with
  | zero => cases result
  | succ less => exact ⟨less, rfl, result⟩

/-- The readers one step further in are sound. -/
def InnerSound (room : Nat) : Prop :=
  ∀ less, room = less + 1 →
    (clause (Inner.withRoom less)).Sound .clause less ∧
    (unary (Inner.withRoom less)).Sound .unary less

theorem primary_sound {room : Nat} (inner : InnerSound room) :
    (primary (Inner.withRoom room)).Sound .primary room := by
  intro cursor tree next result
  unfold primary at result
  split at result
  · rename_i value column rest shape
    cases result
    exact ⟨_, 0, 0, .number, Nat.zero_le _, shape, rfl, (Nat.zero_add _).symm⟩
  · rename_i name column rest shape
    cases result
    exact ⟨_, 0, 0, .name, Nat.zero_le _, shape, rfl, (Nat.zero_add _).symm⟩
  · rename_i first rest shape
    split at result
    · cases result
    rename_i inside afterInside insideResult
    split at result
    · rename_i last afterClosing closes
      cases result
      obtain ⟨less, rfl, read⟩ := descend_ok insideResult
      obtain ⟨tokens, nesting, operators, derived, fits, split, ends, count⟩ :=
        (inner less rfl).1 _ _ _ read
      refine ⟨⟨.opening, first⟩ :: tokens ++ [⟨.closing, last⟩], nesting + 1, operators,
        .parentheses derived, Nat.succ_le_succ fits, ?_, ends, count⟩
      simp only [Cursor.moveTo] at split
      rw [shape, split, closes]
      simp only [Cursor.moveTo, List.cons_append, List.append_assoc, List.nil_append]
    · cases result
  · cases result

theorem unary_sound {room : Nat} (inner : InnerSound room) :
    (unary (Inner.withRoom room)).Sound .unary room := by
  intro cursor tree next result
  unfold unary at result
  split at result
  · rename_i column rest shape
    split at result
    · cases result
    rename_i counted countResult
    split at result
    · cases result
    rename_i operand afterOperand operandResult
    cases result
    obtain ⟨less, rfl, read⟩ := descend_ok operandResult
    obtain ⟨tokens, nesting, operators, derived, fits, split, ends, count⟩ :=
      (inner less rfl).2 _ _ _ read
    obtain ⟨sameTokens, sameEnd, oneLess⟩ := Cursor.countOperator_ok countResult
    simp only [Cursor.moveTo] at sameTokens sameEnd oneLess
    refine ⟨⟨.operator .sub, column⟩ :: tokens, nesting + 1, operators + 1, .minus derived,
      Nat.succ_le_succ fits, ?_, ?_, ?_⟩
    · rw [shape, ← sameTokens, split, List.cons_append]
    · rw [← sameEnd, ends]
    · omega
  · obtain ⟨tokens, nesting, operators, derived, rest⟩ := primary_sound inner _ _ _ result
    exact ⟨tokens, nesting, operators, .primary derived, rest⟩

theorem operator?_eq_some {precedence : Precedence} {tokens rest : List Token} {op : BinaryOp}
    {column : Nat} (found : operator? precedence tokens = some (op, column, rest)) :
    op.precedence = precedence ∧ tokens = ⟨.operator op, column⟩ :: rest := by
  unfold operator? at found
  split at found
  · split at found
    · rename_i same
      cases found
      exact ⟨same, rfl⟩
    · cases found
  · cases found

/-- What a chain has read so far is a derivation of its level, and each step makes
it a longer one. -/
theorem chainFrom_sound {operand : Reader} {precedence : Precedence} {room : Nat}
    (operandSound : operand.Sound precedence.operand room) {start cursor next : Cursor}
    {steps : Nat} {left tree : Expr}
    (soFar : (Nonterminal.level precedence).Reads room left start cursor)
    (result : chainFrom operand precedence steps left cursor = .ok (tree, next)) :
    (Nonterminal.level precedence).Reads room tree start next := by
  induction steps generalizing left cursor with
  | zero =>
      unfold chainFrom at result
      split at result
      · cases result
        exact soFar
      · cases result
  | succ steps ih =>
      unfold chainFrom at result
      split at result
      · cases result
        exact soFar
      rename_i op column rest found
      simp only at result
      split at result
      · cases result
      rename_i counted countResult
      split at result
      · cases result
      rename_i right afterRight rightResult
      refine ih ?_ result
      obtain ⟨rfl, shape⟩ := operator?_eq_some found
      obtain ⟨leftTokens, leftNesting, leftOperators, leftDerived, leftFits, leftSplit, leftEnds,
        leftCount⟩ := soFar
      obtain ⟨rightTokens, rightNesting, rightOperators, rightDerived, rightFits, rightSplit,
        rightEnds, rightCount⟩ := operandSound _ _ _ rightResult
      obtain ⟨sameTokens, sameEnd, oneLess⟩ := Cursor.countOperator_ok countResult
      simp only [Cursor.moveTo] at sameTokens sameEnd oneLess
      refine ⟨leftTokens ++ ⟨.operator op, column⟩ :: rightTokens, _, _,
        .joined (Precedence.mem_operators_iff.mpr rfl) leftDerived rightDerived,
        Nat.max_le.mpr ⟨leftFits, rightFits⟩, ?_, ?_, ?_⟩
      · rw [leftSplit, shape, ← sameTokens, rightSplit, List.append_assoc, List.cons_append]
      · rw [leftEnds, ← sameEnd, rightEnds]
      · omega

theorem chain_sound {operand : Reader} {precedence : Precedence} {room : Nat}
    (operandSound : operand.Sound precedence.operand room) :
    (chain operand precedence).Sound (.level precedence) room := by
  intro cursor tree next result
  unfold chain at result
  split at result
  · cases result
  rename_i left afterLeft leftResult
  obtain ⟨tokens, nesting, operators, derived, rest⟩ := operandSound _ _ _ leftResult
  exact chainFrom_sound operandSound ⟨tokens, nesting, operators, .operand derived, rest⟩ result

theorem equality_sound {room : Nat} (inner : InnerSound room) :
    (equality (Inner.withRoom room)).Sound (.level .equality) room := by
  have multiplicative : (chain _ .multiplicative).Sound (.level .multiplicative) room :=
    chain_sound (unary_sound inner)
  have additive : (chain _ .additive).Sound (.level .additive) room := chain_sound multiplicative
  have comparison : (chain _ .comparison).Sound (.level .comparison) room := chain_sound additive
  exact chain_sound comparison

theorem clause_sound {room : Nat} (inner : InnerSound room) :
    (clause (Inner.withRoom room)).Sound .clause room := by
  intro cursor tree next result
  unfold clause at result
  split at result
  · rename_i target first second rest shape
    split at result
    · cases result
    rename_i counted countResult
    split at result
    · cases result
    rename_i value afterValue valueResult
    cases result
    obtain ⟨less, rfl, read⟩ := descend_ok valueResult
    obtain ⟨tokens, nesting, operators, derived, fits, split, ends, count⟩ :=
      (inner less rfl).1 _ _ _ read
    obtain ⟨sameTokens, sameEnd, oneLess⟩ := Cursor.countOperator_ok countResult
    simp only [Cursor.moveTo] at sameTokens sameEnd oneLess
    refine ⟨⟨.name target, first⟩ :: ⟨.assign, second⟩ :: tokens, nesting + 1, operators + 1,
      .assignment derived, Nat.succ_le_succ fits, ?_, ?_, ?_⟩
    · rw [shape, ← sameTokens, split, List.cons_append, List.cons_append]
    · rw [← sameEnd, ends]
    · omega
  · obtain ⟨tokens, nesting, operators, derived, rest⟩ := equality_sound inner _ _ _ result
    exact ⟨tokens, nesting, operators, .equality derived, rest⟩

theorem innerSound (room : Nat) : InnerSound room := by
  induction room with
  | zero =>
      intro less impossible
      cases impossible
  | succ room ih =>
      intro less same
      cases same
      exact ⟨clause_sound ih, unary_sound ih⟩

end Reader

/-- Reading succeeds exactly on the clauses of the grammar that stay within the
limits, and the tree is that of the derivation. The tokens of a clause have no
other tree, whether the limits are kept or not. -/
theorem Expr.ofTokens_eq_ok_iff_derives (tokens : Tokens) (tree : Expr) :
    (Expr.ofTokens tokens = .ok tree ↔
      ∃ nesting operators, Derives .clause tokens.list tree nesting operators ∧
        nesting ≤ 128 ∧ operators ≤ 1024) ∧
    ∀ other nesting operators, Expr.ofTokens tokens = .ok tree →
      Derives .clause tokens.list other nesting operators → other = tree := by
  have accepted : Expr.ofTokens tokens = .ok tree ↔
      ∃ nesting operators, Derives .clause tokens.list tree nesting operators ∧
        nesting ≤ 128 ∧ operators ≤ 1024 := by
    constructor
    · intro result
      unfold Expr.ofTokens at result
      split at result
      · cases result
      rename_i read next readResult
      split at result
      · rename_i finished
        cases result
        obtain ⟨taken, nesting, operators, derived, fits, split, -, count⟩ :=
          Reader.clause_sound (Reader.innerSound maxNesting) _ _ _ readResult
        rw [List.isEmpty_iff.mp finished, List.append_nil] at split
        subst split
        refine ⟨nesting, operators, derived, fits, ?_⟩
        rw [show 1024 = operators + next.operatorsLeft from count]
        exact Nat.le_add_right _ _
      · cases result
    · rintro ⟨nesting, operators, derived, fits, few⟩
      have roomy : nesting ≤ maxNesting := fits
      have taken := derived.takes_clause roomy tokens.endColumn (1024 - operators)
      rw [List.append_nil, Nat.add_sub_cancel' few] at taken
      simp only [Expr.ofTokens, maxOperators, taken, List.isEmpty_nil, if_true]
  refine ⟨accepted, ?_⟩
  intro other nesting operators result derived
  obtain ⟨_, _, treeDerived, _⟩ := accepted.mp result
  exact (derived.unique treeDerived).1

end SceneScript
