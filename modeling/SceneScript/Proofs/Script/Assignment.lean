import SceneScript.Proofs.Expr.Columns
import SceneScript.Proofs.Script.Reading
import SceneScript.Script.Run

/-!
# Assignments as statements and as clauses

An assignment can be a statement or a clause. The statement reads its name and its equals
sign by itself and its right-hand side as a clause; the clause reads all of it as tokens,
which stand further to the right and have one step less of room. Both do the same to the
variables, and both succeed or both fail.
-/

set_option autoImplicit false

namespace SceneScript

open SceneScript.Text SceneScript.Script

/-! ## Trees -/

theorem Expr.ofTokens_of_derives {tokens : Tokens} {tree : Expr} {nesting operators : Nat}
    (derived : Derives .clause tokens.list tree nesting operators) (fits : nesting ≤ maxNesting)
    (few : operators ≤ maxOperators) : Expr.ofTokens tokens = .ok tree := by
  have taken := derived.takes_clause fits tokens.endColumn (maxOperators - operators)
  rw [List.append_nil, Nat.add_sub_cancel' few] at taken
  simp only [Expr.ofTokens, taken, List.isEmpty_nil, if_true]

theorem Expr.derives_of_ofTokens_assignment {target : String} {first second endColumn : Nat}
    {value : List Token} {tree : Expr}
    (read : Expr.ofTokens ⟨⟨.name target, first⟩ :: ⟨.assign, second⟩ :: value, endColumn⟩ =
      .ok tree) :
    ∃ inner nesting operators, tree = .assign target inner ∧
      Derives .clause value inner nesting operators ∧ nesting < maxNesting ∧
      operators < maxOperators := by
  unfold Expr.ofTokens at read
  split at read
  · cases read
  rename_i whole next wholeRead
  split at read
  · rename_i finished
    cases read
    obtain ⟨tokens, nesting, operators, derived, fits, split, -, count⟩ :=
      Reader.clause_sound (Reader.innerSound maxNesting) _ _ _ wholeRead
    rw [List.isEmpty_iff.mp finished, List.append_nil] at split
    simp only at split count
    subst split
    cases derived with
    | equality plain => cases plain.assign_head (by simp) (List.append_nil _)
    | assignment derived =>
        exact ⟨_, _, _, rfl, derived, fits, by omega⟩
  · cases read

/-! ## Tokens -/

theorem Tokens.readFrom_space (column : Nat) (text : List Char) :
    Tokens.readFrom column (' ' :: text) = Tokens.readFrom (column + 1) text := by
  have leading : ((' ' :: text).takeWhile isAsciiBlank).length =
      (text.takeWhile isAsciiBlank).length + 1 := rfl
  have place : column + ((text.takeWhile isAsciiBlank).length + 1) =
      column + 1 + (text.takeWhile isAsciiBlank).length := by omega
  have behind := skipBlanks_cons_space text
  cases skipped : skipBlanks text with
  | nil =>
      rw [skipped] at behind
      rw [Tokens.readFrom_of_nil _ skipped, Tokens.readFrom_of_nil _ behind, leading, place]
  | cons first rest =>
      rw [skipped] at behind
      rw [Tokens.readFrom_of_cons _ skipped, Tokens.readFrom_of_cons _ behind, leading, place]

theorem Tokens.readFrom_singleton (column : Nat) {c : Char} {lexeme : Lexeme}
    (solid : isAsciiBlank c = false) (found : Lexeme.longest c [] = .ok (lexeme, 0)) :
    Tokens.readFrom column [c] = .ok ⟨[⟨lexeme, column⟩], column + 1⟩ := by
  have read : Tokens.readFrom column [c] =
      (Tokens.readFrom (column + 1) []).map (Tokens.push ⟨lexeme, column⟩) :=
    Tokens.readFrom_of_longest column (List.forall_mem_nil _) solid found
  rw [read, Tokens.readFrom_of_nil _ rfl]
  rfl

/-- The text of an assignment. -/
def Script.joinAssignment (target source : List Char) : List Char :=
  target ++ ' ' :: '=' :: ' ' :: source

section
variable {target : List Char} (named : IsName target) (source : List Char)
include named

theorem Tokens.read_joinAssignment :
    Tokens.read (joinAssignment target source) =
      (Tokens.readFrom (1 + (target.length + 3)) source).map fun tokens =>
        (tokens.push ⟨.assign, target.length + 2⟩).push ⟨.name (String.ofList target), 1⟩ := by
  cases target with
  | nil => exact named.elim
  | cons first word =>
      have solid := isAsciiBlank_of_isWordChar (isWordChar_of_isWordStart named.1)
      have name := Lexeme.longest_of_isWordStart (word ++ ' ' :: '=' :: ' ' :: source) named.1
      rw [leadingWord_word named.2 (by decide)] at name
      have equals : Lexeme.longest '=' (' ' :: source) = .ok (.assign, 0) := rfl
      have space : ∀ c ∈ [' '], isAsciiBlank c = true := List.forall_mem_singleton.mpr rfl
      have readName := Tokens.readFrom_of_longest 1 (List.forall_mem_nil _) solid name
      have readEquals : Tokens.readFrom (word.length + 2) (' ' :: '=' :: ' ' :: source) =
          (Tokens.readFrom (word.length + 4) (' ' :: source)).map
            (Tokens.push ⟨.assign, word.length + 3⟩) :=
        Tokens.readFrom_of_longest (word.length + 2) space rfl equals
      have start : 1 + ([] : List Char).length + 1 + word.length = word.length + 2 :=
        Nat.add_comm 2 _
      have ends : 1 + ((first :: word).length + 3) = word.length + 4 + 1 := Nat.add_comm 1 _
      rw [List.nil_append, List.drop_left, start, readEquals, Tokens.readFrom_space] at readName
      rw [Tokens.read, joinAssignment, List.cons_append, readName, ends]
      cases Tokens.readFrom (word.length + 4 + 1) source <;> rfl

/-- The tree of the clause is an assignment of the tree of its right-hand side, further to
the right. -/
theorem exists_tree_of_joinAssignment {tree : Expr}
    (read : Expr.ofText (joinAssignment target source) = .ok tree) :
    ∃ inner, Expr.ofText source = .ok inner ∧
      tree = .assign (String.ofList target) (inner.mapColumns (· + (target.length + 3))) := by
  rw [Expr.ofText, Tokens.read_joinAssignment named, Tokens.readFrom_add, ← Tokens.read] at read
  rw [Expr.ofText]
  cases lexed : Tokens.read source with
  | error fault =>
      rw [lexed] at read
      cases read
  | ok tokens =>
      rw [lexed] at read
      obtain ⟨moved, nesting, operators, rfl, derived, fits, few⟩ :=
        Expr.derives_of_ofTokens_assignment read
      -- Moved back, the derivation is one of the right-hand side by itself.
      have original := derived.mapColumns (· - (target.length + 3))
      rw [Tokens.mapColumns, Token.map_sub_map_add] at original
      have again := original.mapColumns (· + (target.length + 3))
      refine ⟨_, Expr.ofTokens_of_derives original (Nat.le_of_lt fits) (Nat.le_of_lt few), ?_⟩
      rw [(again.unique derived).1]

end

/-! ## Statements -/

section
variable {target source : List Char} (named : IsName target) (solid : source ≠ [])
  (trimmed : IsTrimmed source)
include named solid trimmed

theorem isTrimmed_joinAssignment : IsTrimmed (joinAssignment target source) := by
  have targetSolid : target ≠ [] := by
    rintro rfl
    exact named
  exact (isTrimmed_of_word named.isWordChar).append trimmed targetSolid solid [' ', '=', ' ']

theorem readStatement_joinAssignment (noKeyword : target ≠ loopKeyword) :
    readStatement (joinAssignment target source ++ [';']) =
      .plain (.ok (.assign (String.ofList target) (Clause.ofText source))) := by
  have bodyTrimmed := isTrimmed_joinAssignment named solid trimmed
  have simple : startsLoop (joinAssignment target source ++ [';']) = false := by
    rw [startsLoop_append_cons _ _ (by decide), joinAssignment,
      startsLoop_append_cons _ _ (by decide), Bool.eq_false_iff, ne_eq, startsLoop_iff,
      leadingWord_of_word named.isWordChar]
    exact noKeyword
  have whole : IsTrimmed (joinAssignment target source ++ [';']) :=
    bodyTrimmed.append (by decide) (by simp [joinAssignment]) (List.cons_ne_nil _ _) []
  simp only [readStatement, readStatementWith, trim_eq_self_iff.mpr whole, simple,
    Bool.false_eq_true, if_false]
  rw [readSimple_assignment bodyTrimmed (not_objectWord_begins_assignment named)
    (readAssignment?_name named solid trimmed)]

end

/-! ## Effects -/

theorem Clause.eval_of_tree {clause : Clause} {tree : Expr} (read : clause.tree = .ok tree)
    (store : Store) : clause.eval store = tree.eval store := by
  rw [eval, read]

theorem Clause.eval_of_error {clause : Clause} {reason : ClauseFault}
    (failed : clause.tree = .error reason) (store : Store) :
    clause.eval store = (.error (.clause clause.source reason), store) := by
  rw [eval, failed]

theorem World.assign_of_tree {value : Clause} {tree : Expr} (read : value.tree = .ok tree)
    (world : World) (target : String) (move : Nat → Nat) :
    let evaluated := (Expr.assign target (tree.mapColumns move)).eval world.store
    ∃ fault, world.assign target value = ({ world with store := evaluated.2 }, fault) ∧
      (fault = none ↔ ∃ result, evaluated.1 = .ok result) := by
  simp only [World.assign, World.eval, Clause.eval_of_tree read, Expr.eval, Expr.eval_mapColumns]
  rcases tree.eval world.store with ⟨fault | ⟨number | truth⟩, store⟩
  · exact ⟨_, rfl, by simp [Except.mapError]⟩
  · exact ⟨_, rfl, by simp [Except.mapError, Store.assign]⟩
  · exact ⟨_, rfl, by simp [Except.mapError, Store.assign]⟩

theorem World.assign_of_error {value : Clause} {reason : ClauseFault}
    (failed : value.tree = .error reason) (world : World) (target : String) :
    world.assign target value = (world, some (.clause value.source reason)) := by
  simp only [World.assign, World.eval, Clause.eval_of_error failed]

/-- An assignment statement is read as one and stores what its text stores as a clause, if
that clause can be read; both fail on the same stores. If the right-hand side cannot be
read, both fail on every store and change nothing. -/
theorem assignment_is_clause {target source : List Char} (named : IsName target)
    (noKeyword : target ≠ loopKeyword) (solid : source ≠ []) (trimmed : trim source = source) :
    let command := Command.assign (String.ofList target) (Clause.ofText source)
    let clause := Clause.ofText (joinAssignment target source)
    readStatement (joinAssignment target source ++ [';']) = .plain (.ok command) ∧
    ((∃ tree, clause.tree = .ok tree) →
      (∃ tree, (Clause.ofText source).tree = .ok tree) ∧
      ∀ defaults bound world, ∃ fault,
        command.run defaults bound world =
          some ({ world with store := (clause.eval world.store).2 }, fault) ∧
        (fault = none ↔ ∃ value, (clause.eval world.store).1 = .ok value)) ∧
    ((∃ reason, (Clause.ofText source).tree = .error reason) →
      ∀ defaults bound world,
        (∃ fault, command.run defaults bound world = some (world, some fault)) ∧
        ∃ fault, clause.eval world.store = (.error fault, world.store)) := by
  intro command clause
  have sourceTrimmed := trim_eq_self_iff.mp trimmed
  have clauseTree : clause.tree = Expr.ofText (joinAssignment target source) := by
    simp only [clause, Clause.ofText,
      trim_eq_self_iff.mpr (isTrimmed_joinAssignment named solid sourceTrimmed)]
  have valueTree : (Clause.ofText source).tree = Expr.ofText source := by
    simp only [Clause.ofText, trimmed]
  refine ⟨readStatement_joinAssignment named solid sourceTrimmed noKeyword, ?_, ?_⟩
  · intro ⟨tree, parsed⟩
    obtain ⟨inner, read, rfl⟩ :=
      exists_tree_of_joinAssignment named source (clauseTree.symm.trans parsed)
    refine ⟨⟨inner, valueTree.trans read⟩, fun defaults bound world => ?_⟩
    obtain ⟨fault, ran, succeeds⟩ := World.assign_of_tree (valueTree.trans read) world
      (String.ofList target) (· + (target.length + 3))
    rw [← Clause.eval_of_tree parsed] at ran succeeds
    exact ⟨fault, congrArg some ran, succeeds⟩
  · intro ⟨reason, failed⟩ defaults bound world
    refine ⟨⟨_, congrArg some (World.assign_of_error failed world _)⟩, ?_⟩
    cases parsed : clause.tree with
    | error fault => exact ⟨_, Clause.eval_of_error parsed _⟩
    | ok tree =>
        obtain ⟨inner, read, -⟩ :=
          exists_tree_of_joinAssignment named source (clauseTree.symm.trans parsed)
        rw [valueTree, read] at failed
        cases failed

theorem exists_tree_of_copy :
    ∃ tree, (Clause.ofText (joinAssignment ['x'] ['y'])).tree = .ok tree := by
  have named : IsName ['x'] := ⟨rfl, List.forall_mem_nil _⟩
  have trimmed : trim (joinAssignment ['x'] ['y']) = joinAssignment ['x'] ['y'] := by decide
  have value : Derives .clause [⟨.name "y", 5⟩] (.var "y" 5) 0 0 :=
    .equality (.operand (.operand (.operand (.operand (.primary .name)))))
  have read := Tokens.read_joinAssignment named ['y']
  rw [Tokens.readFrom_singleton _ rfl rfl] at read
  refine ⟨.assign (String.ofList ['x']) (.var "y" 5), ?_⟩
  simp only [Clause.ofText, trimmed, Expr.ofText, read]
  exact Expr.ofTokens_of_derives (.assignment value) (by decide) (by decide)

theorem exists_error_of_parenthesis : ∃ reason, (Clause.ofText [')']).tree = .error reason := by
  have trimmed : trim [')'] = [')'] := by decide
  have read : Tokens.read [')'] = .ok ⟨[⟨.closing, 1⟩], 2⟩ := Tokens.readFrom_singleton 1 rfl rfl
  simp only [Clause.ofText, trimmed, Expr.ofText, read]
  exact ⟨_, rfl⟩

/-- The right-hand side of the first assignment is a name, that of the second one cannot
be read. -/
theorem assignment_is_clause_of_copy :
    readStatement (joinAssignment ['x'] ['y'] ++ [';']) =
        .plain (.ok (.assign (String.ofList ['x']) (Clause.ofText ['y']))) ∧
      (∃ tree, (Clause.ofText ['y']).tree = .ok tree) ∧
      (∀ world : World, ∃ fault,
        (Command.assign (String.ofList ['x']) (Clause.ofText ['y'])).run {} 0 world =
          some ({ world with
            store := ((Clause.ofText (joinAssignment ['x'] ['y'])).eval world.store).2 }, fault) ∧
        (fault = none ↔
          ∃ value, ((Clause.ofText (joinAssignment ['x'] ['y'])).eval world.store).1 = .ok value)) ∧
      ∀ world : World,
        (∃ fault, (Command.assign (String.ofList ['x']) (Clause.ofText [')'])).run {} 0 world =
          some (world, some fault)) ∧
        ∃ fault, (Clause.ofText (joinAssignment ['x'] [')'])).eval world.store =
          (.error fault, world.store) := by
  have named : IsName ['x'] := ⟨rfl, List.forall_mem_nil _⟩
  obtain ⟨read, copies, -⟩ :=
    assignment_is_clause named (by decide) (by decide : ['y'] ≠ []) (by decide)
  obtain ⟨-, -, fails⟩ :=
    assignment_is_clause named (by decide) (by decide : [')'] ≠ []) (by decide)
  obtain ⟨parsed, same⟩ := copies exists_tree_of_copy
  exact ⟨read, parsed, same {} 0, fails exists_error_of_parenthesis {} 0⟩

end SceneScript
