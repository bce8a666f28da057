import SceneScript.Proofs.Expr.Acceptance
import SceneScript.Script.Program

/-!
# How large commands get

Whatever the script, the commands that are read from it can be run with a bounded
stack: loops nest at most as deep as the limit says, and so do the trees of clauses.
The height of a tree is bounded by its operators. What nests without being a binary
operator is bounded by the nesting of its derivation.
-/

set_option autoImplicit false

namespace SceneScript

open SceneScript.Script

/-! ## Trees -/

namespace Expr

/-- The count of nodes on the longest path from the root to a leaf. -/
def height : Expr → Nat
  | .number _ => 1
  | .var _ _ => 1
  | .neg operand => operand.height + 1
  | .binary _ _ left right => max left.height right.height + 1
  | .assign _ value => value.height + 1

/-- The largest count of unary minuses and assignments on a path from the root to a
leaf. -/
def descents : Expr → Nat
  | .number _ => 0
  | .var _ _ => 0
  | .neg operand => operand.descents + 1
  | .binary _ _ left right => max left.descents right.descents
  | .assign _ value => value.descents + 1

theorem height_le_operatorCount_succ (tree : Expr) : tree.height ≤ tree.operatorCount + 1 := by
  induction tree with
  | number => exact Nat.le_refl _
  | var => exact Nat.le_refl _
  | neg _ ih => exact Nat.succ_le_succ ih
  | binary op column left right leftIH rightIH =>
      simp only [height, operatorCount]
      omega
  | assign _ _ ih => exact Nat.succ_le_succ ih

end Expr

theorem Derives.operatorCount_eq {symbol : Nonterminal} {tokens : List Token} {tree : Expr}
    {nesting operators : Nat} (derived : Derives symbol tokens tree nesting operators) :
    tree.operatorCount = operators := by
  induction derived with
  | number => rfl
  | name => rfl
  | parentheses _ ih => exact ih
  | minus _ ih => rw [Expr.operatorCount, ih]
  | primary _ ih => exact ih
  | operand _ ih => exact ih
  | joined _ _ _ leftIH rightIH => rw [Expr.operatorCount, leftIH, rightIH]
  | equality _ ih => exact ih
  | assignment _ ih => rw [Expr.operatorCount, ih]

/-- Parentheses count for the nesting of a derivation but leave no node, so the
nesting may be larger. -/
theorem Derives.descents_le {symbol : Nonterminal} {tokens : List Token} {tree : Expr}
    {nesting operators : Nat} (derived : Derives symbol tokens tree nesting operators) :
    tree.descents ≤ nesting := by
  induction derived with
  | number => exact Nat.le_refl _
  | name => exact Nat.le_refl _
  | parentheses _ ih => exact Nat.le_succ_of_le ih
  | minus _ ih => exact Nat.succ_le_succ ih
  | primary _ ih => exact ih
  | operand _ ih => exact ih
  | joined _ _ _ leftIH rightIH =>
      rw [Expr.descents]
      exact Nat.max_le.mpr
        ⟨Nat.le_trans leftIH (Nat.le_max_left _ _), Nat.le_trans rightIH (Nat.le_max_right _ _)⟩
  | equality _ ih => exact ih
  | assignment _ ih => exact Nat.succ_le_succ ih

/-- A tree within the limits of a clause. -/
structure Expr.IsBounded (tree : Expr) : Prop where
  operators : tree.operatorCount ≤ 1024
  height : tree.height ≤ 1025
  descents : tree.descents ≤ 128

theorem Expr.isBounded_of_ofTokens {tokens : Tokens} {tree : Expr}
    (result : Expr.ofTokens tokens = .ok tree) : tree.IsBounded := by
  unfold Expr.ofTokens at result
  split at result
  · cases result
  rename_i read next readResult
  split at result
  · cases result
    obtain ⟨taken, nesting, operators, derived, fits, -, -, count⟩ :=
      Reader.clause_sound (Reader.innerSound maxNesting) _ _ _ readResult
    have few : tree.operatorCount ≤ 1024 := by
      rw [derived.operatorCount_eq, show 1024 = operators + next.operatorsLeft from count]
      exact Nat.le_add_right _ _
    exact ⟨few, Nat.le_trans tree.height_le_operatorCount_succ (Nat.succ_le_succ few),
      Nat.le_trans derived.descents_le fits⟩
  · cases result

theorem Clause.isBounded_of_ofText {text : List Char} {tree : Expr}
    (read : (Clause.ofText text).tree = .ok tree) : tree.IsBounded := by
  simp only [Clause.ofText, Expr.ofText] at read
  split at read
  · cases read
  · exact Expr.isBounded_of_ofTokens read

/-! ## Commands -/

namespace Command

mutual

/-- How many loops stand inside each other. -/
def loopNesting : Command → Nat
  | .loop _ _ _ body => loopNestingAll body + 1
  | _ => 0

/-- The deepest nesting of loops in several commands. -/
def loopNestingAll : List Command → Nat
  | [] => 0
  | command :: rest => max command.loopNesting (loopNestingAll rest)

end

mutual

/-- The clauses of a command, those in the body of a loop included. -/
def clauses : Command → List Clause
  | .assign _ value => [value]
  | .loop init condition increment body => init :: condition :: increment :: clausesAll body
  | _ => []

/-- The clauses of several commands. -/
def clausesAll : List Command → List Clause
  | [] => []
  | command :: rest => command.clauses ++ clausesAll rest

end

theorem loopNestingAll_le {commands : List Command} {room : Nat}
    (each : ∀ command ∈ commands, command.loopNesting ≤ room) : loopNestingAll commands ≤ room := by
  induction commands with
  | nil => exact Nat.zero_le _
  | cons command rest ih =>
      rw [loopNestingAll]
      exact Nat.max_le.mpr ⟨each command List.mem_cons_self,
        ih fun other member => each other (List.mem_cons_of_mem _ member)⟩

theorem mem_clausesAll {commands : List Command} {clause : Clause}
    (member : clause ∈ clausesAll commands) : ∃ command ∈ commands, clause ∈ command.clauses := by
  induction commands with
  | nil => cases member
  | cons command rest ih =>
      rw [clausesAll, List.mem_append] at member
      rcases member with inFirst | inRest
      · exact ⟨command, List.mem_cons_self, inFirst⟩
      · obtain ⟨other, isOther, found⟩ := ih inRest
        exact ⟨other, List.mem_cons_of_mem _ isOther, found⟩

/-- A command as it comes from reading: its loops nest at most `room` deep, and each of
its clauses was read from a text. -/
structure IsRead (room : Nat) (command : Command) : Prop where
  nesting : command.loopNesting ≤ room
  clauses : ∀ clause ∈ command.clauses, ∃ text, clause = Clause.ofText text

theorem isRead_assign (room : Nat) (target : String) (text : List Char) :
    IsRead room (.assign target (Clause.ofText text)) where
  nesting := Nat.zero_le _
  clauses _ member := ⟨text, List.mem_singleton.mp member⟩

theorem isRead_loop {room : Nat} {body : List Command}
    (each : ∀ command ∈ body, IsRead room command)
    (init condition increment : List Char) :
    IsRead (room + 1) (.loop (Clause.ofText init) (Clause.ofText condition)
      (Clause.ofText increment) body) where
  nesting := by
    rw [loopNesting]
    exact Nat.succ_le_succ (loopNestingAll_le fun command member => (each command member).nesting)
  clauses clause member := by
    simp only [Command.clauses, List.mem_cons] at member
    rcases member with rfl | rfl | rfl | inBody
    · exact ⟨init, rfl⟩
    · exact ⟨condition, rfl⟩
    · exact ⟨increment, rfl⟩
    · obtain ⟨command, isCommand, found⟩ := mem_clausesAll inBody
      exact (each command isCommand).clauses clause found

end Command

/-! ## Readers -/

namespace Script

theorem isRead_of_callCommand? {room : Nat} {method : Method} {arguments : List String}
    {command : Command} (known : callCommand? method arguments = some command) :
    command.IsRead room := by
  unfold callCommand? at known
  split at known
  all_goals cases known
  all_goals exact ⟨Nat.zero_le _, fun clause member => nomatch member⟩

theorem isRead_of_readCall {room : Nat} {call : List Char} {body : String} {command : Command}
    (read : readCall call body = .ok command) : command.IsRead room := by
  unfold readCall at read
  split at read
  · cases read
  split at read
  · cases read
  simp only at read
  split at read
  · cases read
  · rename_i known
    cases read
    exact isRead_of_callCommand? known

theorem isRead_of_readAssignment? {room : Nat} {body : List Char} {command : Command}
    (read : readAssignment? body = some command) : command.IsRead room := by
  unfold readAssignment? at read
  split at read
  · cases read
  split at read
  · split at read
    · cases read
    · cases read
      exact Command.isRead_assign room _ _
  · cases read

theorem isRead_of_readSimple {room : Nat} {statement : List Char} {command : Command}
    (read : readSimple statement = .ok command) : command.IsRead room := by
  unfold readSimple at read
  split at read
  · cases read
  simp only at read
  split at read
  · exact isRead_of_readCall read
  split at read
  · cases read
  · rename_i assignment
    cases read
    exact isRead_of_readAssignment? assignment

/-- The body of a loop was read with one level less of room. -/
theorem isRead_of_readLoop {room : Nat} {statement : List Char} {command : Command}
    (inner : ∀ less, room = less + 1 → ∀ code,
      ∀ other ∈ (readBlockWith (bodyReader less) code).commands, other.IsRead less)
    (read : (readLoop (bodyReader room) statement).command = .ok command) :
    command.IsRead room := by
  unfold readLoop at read
  split at read
  · cases read
  rename_i loop _
  cases room with
  | zero => cases read
  | succ less =>
      cases read
      exact Command.isRead_loop (inner less rfl loop.body) loop.init loop.condition loop.increment

/-- One block, if the bodies of its loops are in order. -/
theorem isRead_of_readBlock_step {room : Nat}
    (inner : ∀ less, room = less + 1 → ∀ code,
      ∀ other ∈ (readBlockWith (bodyReader less) code).commands, other.IsRead less)
    (code : List Char) :
    ∀ command ∈ (readBlockWith (bodyReader room) code).commands, command.IsRead room := by
  intro command member
  simp only [readBlockWith, List.mem_filterMap, List.mem_map] at member
  obtain ⟨result, ⟨text, -, rfl⟩, isCommand⟩ := member
  have read : (readStatementWith (bodyReader room) text).command = .ok command := by
    rw [StatementResult.command?] at isCommand
    split at isCommand
    · rename_i read
      cases isCommand
      exact read
    · cases isCommand
  simp only [readStatementWith] at read
  split at read
  · exact isRead_of_readLoop inner read
  · exact isRead_of_readSimple read

theorem isRead_of_readBlockWith (room : Nat) (code : List Char) :
    ∀ command ∈ (readBlockWith (bodyReader room) code).commands, command.IsRead room := by
  induction room generalizing code with
  | zero => exact isRead_of_readBlock_step (fun less impossible => by cases impossible) code
  | succ room ih =>
      refine isRead_of_readBlock_step (fun less same => ?_) code
      cases same
      exact ih

end Script

/-- The loops of a program nest at most 64 deep. The trees of its clauses have at most
1024 operators and a height of at most 1025, and on no path from the root to a leaf
there are more than 128 unary minuses and assignments. -/
theorem Program.ofText_isBounded (source : List Char) :
    Command.loopNestingAll (Program.ofText source).commands ≤ 64 ∧
      ∀ clause ∈ Command.clausesAll (Program.ofText source).commands,
        ∀ tree, clause.tree = .ok tree →
          tree.operatorCount ≤ 1024 ∧ tree.height ≤ 1025 ∧ tree.descents ≤ 128 := by
  have each := isRead_of_readBlockWith maxLoopNesting source
  refine ⟨Command.loopNestingAll_le fun command member => (each command member).nesting, ?_⟩
  intro clause member tree read
  obtain ⟨command, isCommand, found⟩ := Command.mem_clausesAll member
  obtain ⟨text, rfl⟩ := (each command isCommand).clauses clause found
  have bounded := Clause.isBounded_of_ofText read
  exact ⟨bounded.operators, bounded.height, bounded.descents⟩

/-- A loop in a loop, with a minus in front of an assignment. -/
theorem Program.ofText_isBounded_nested_loops :
    let source :=
      "for(i = 0; i < 1; i = 1)\x7bfor(j = 0; j < 1; j = 1)\x7bx = -(y = i);\x7d\x7d".toList
    Command.loopNestingAll (Program.ofText source).commands = 2 ∧
      Command.loopNestingAll (Program.ofText source).commands ≤ 64 ∧
      ∃ clause ∈ Command.clausesAll (Program.ofText source).commands,
        ∃ tree, clause.tree = .ok tree ∧ tree.descents = 2 ∧
          tree.operatorCount ≤ 1024 ∧ tree.height ≤ 1025 ∧ tree.descents ≤ 128 := by
  intro source
  have nested : Command.loopNestingAll (Program.ofText source).commands = 2 := by decide +kernel
  have present : (Command.clausesAll (Program.ofText source).commands).any
      (fun clause => (clause.tree.toOption.map Expr.descents) = some 2) = true := by
    decide +kernel
  have bounded := Program.ofText_isBounded source
  refine ⟨nested, bounded.1, ?_⟩
  obtain ⟨clause, member, descents⟩ := List.any_eq_true.mp present
  cases read : clause.tree with
  | error fault => simp [read, Except.toOption] at descents
  | ok tree =>
      have twice : tree.descents = 2 := by simpa [read, Except.toOption] using descents
      exact ⟨clause, member, tree, read, twice, bounded.2 clause member tree read⟩

end SceneScript
