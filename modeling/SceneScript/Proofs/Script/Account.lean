import Mathlib.Algebra.GroupWithZero.Nat
import SceneScript.Proofs.Script.Block
import SceneScript.Proofs.Script.Limits

/-!
# Every statement is accounted for

The blocks of a program are its source and the bodies of the loops that are accepted, at
every depth. A statement of a block gives one command or one fault; the rest of what it
gives comes from the block in its body. So commands and faults together are as many as
the statements of all blocks and the blocks whose cutting was halted. The faults of a
block stand together among those of the program.
-/

set_option autoImplicit false

namespace SceneScript

open SceneScript.Text SceneScript.Script

namespace Command

mutual

/-- The count of commands at every depth. -/
def count : Command → Nat
  | .loop _ _ _ body => countAll body + 1
  | _ => 1

def countAll : List Command → Nat
  | [] => 0
  | command :: rest => command.count + countAll rest

end

theorem count_of_loopNesting_zero {command : Command} (flat : command.loopNesting ≤ 0) :
    command.count = 1 := by
  cases command with
  | loop init condition increment body => cases flat
  | _ => rfl

end Command

/-- The count of all that reading gave: commands at every depth, and faults. -/
def Program.weight (program : Program) : Nat :=
  Command.countAll program.commands + program.faults.length

namespace StatementResult

variable (command : Command) (fault : StatementFault) (bodyFaults : List Fault)

@[simp] theorem command?_ok : (mk (.ok command) bodyFaults).command? = some command := rfl

@[simp] theorem command?_error : (mk (.error fault) bodyFaults).command? = none := rfl

@[simp] theorem faults_ok : (mk (.ok command) bodyFaults).faults = bodyFaults := rfl

@[simp] theorem faults_error :
    (mk (.error fault) bodyFaults).faults = bodyFaults ++ [.statement fault] := rfl

end StatementResult

namespace Script

/-! ## Blocks -/

/-- A text that is read as a block where the given count of loops may nest. -/
structure Block where
  room : Nat
  code : List Char
deriving DecidableEq

namespace Block

def statements (block : Block) : List (List Char) :=
  (cut (normalize block.code)).statements

def isHalted (block : Block) : Bool :=
  (cut (normalize block.code)).halted.isSome

def read (block : Block) : Program :=
  readBlockWith (bodyReader block.room) block.code

def readStatement (block : Block) (text : List Char) : StatementResult :=
  readStatementWith (bodyReader block.room) text

/-- The block in the body of a statement, if the statement is accepted as a loop. -/
def body? (block : Block) (text : List Char) : Option Block :=
  match (block.readStatement text).command with
  | .ok (.loop _ _ _ _) =>
    (loopText? (trim text)).map fun loop => ⟨block.room - 1, loop.body⟩
  | _ => none

def bodies (block : Block) : List Block :=
  block.statements.filterMap block.body?

end Block

/-- A block with the blocks of all accepted loops in it. -/
def blocksFrom : Nat → List Char → List Block
  | 0, code => [⟨0, code⟩]
  | room + 1, code =>
    ⟨room + 1, code⟩ :: (Block.bodies ⟨room + 1, code⟩).flatMap fun body =>
      blocksFrom room body.code

end Script

def Program.blocks (source : List Char) : List Block :=
  blocksFrom maxLoopNesting source

namespace Script

/-- What became of a statement. -/
inductive Block.Outcome (block : Block) (text : List Char) : Prop where
  | rejected (fault : StatementFault)
      (result : block.readStatement text = .plain (.error fault))
      (noBody : block.body? text = none)
  | simple (command : Command) (single : command.count = 1)
      (result : block.readStatement text = .plain (.ok command))
      (noBody : block.body? text = none)
  | loop (init condition increment : Clause) (room : Nat) (code : List Char)
      (deeper : block.room = room + 1)
      (result : block.readStatement text =
        ⟨.ok (.loop init condition increment (Block.read ⟨room, code⟩).commands),
          (Block.read ⟨room, code⟩).faults⟩)
      (body : block.body? text = some ⟨room, code⟩)

theorem Block.outcome (block : Block) (text : List Char) : block.Outcome text := by
  obtain ⟨room, code⟩ := block
  by_cases starts : startsLoop (trim text) = true
  · have result : Block.readStatement ⟨room, code⟩ text = readLoop (bodyReader room) (trim text) :=
      if_pos starts
    cases taken : loopText? (trim text) with
    | none =>
        simp only [readLoop, taken] at result
        exact .rejected _ result (by simp only [body?, result, StatementResult.plain])
    | some loop =>
        cases room with
        | zero =>
            simp only [readLoop, taken, bodyReader] at result
            exact .rejected _ result (by simp only [body?, result, StatementResult.plain])
        | succ room =>
            simp only [readLoop, taken, bodyReader] at result
            refine .loop _ _ _ room loop.body rfl result ?_
            simp only [body?, result, taken, Option.map_some, Nat.add_sub_cancel]
  · have result : Block.readStatement ⟨room, code⟩ text = .plain (readSimple (trim text)) :=
      if_neg starts
    cases read : readSimple (trim text) with
    | error fault =>
        rw [read] at result
        exact .rejected _ result (by simp only [body?, result, StatementResult.plain])
    | ok command =>
        rw [read] at result
        have inRoom : command.IsRead 0 := isRead_of_readSimple read
        have flat := inRoom.nesting
        refine .simple command (Command.count_of_loopNesting_zero flat) result ?_
        cases command with
        | loop init condition increment body => cases flat
        | _ => simp only [body?, result, StatementResult.plain]

/-! ## Counting -/

/-- What the statements and the halts of several blocks come to. -/
def Block.total (blocks : List Block) : Nat :=
  (blocks.map fun block => block.statements.length).sum + blocks.countP Block.isHalted

theorem Block.total_append (first second : List Block) :
    total (first ++ second) = total first + total second := by
  simp only [total, List.map_append, List.sum_append, List.countP_append]
  omega

/-- Each statement counts for one, and the rest of what it gives is in its body. -/
theorem Block.countAll_add_faults (block : Block) (texts : List (List Char)) :
    Command.countAll (texts.filterMap fun text => (block.readStatement text).command?) +
        (texts.flatMap fun text => (block.readStatement text).faults).length =
      texts.length + ((texts.filterMap block.body?).map fun body => body.read.weight).sum := by
  induction texts with
  | nil => rfl
  | cons text rest ih =>
      simp only [List.filterMap_cons, List.flatMap_cons, List.length_append, List.length_cons]
      cases block.outcome text with
      | rejected fault result noBody =>
          simp only [result, noBody, StatementResult.plain, StatementResult.command?_error,
            StatementResult.faults_error, List.nil_append, List.length_singleton]
          omega
      | simple command single result noBody =>
          simp only [result, noBody, StatementResult.plain, StatementResult.command?_ok,
            StatementResult.faults_ok, Command.countAll, single, List.length_nil]
          omega
      | loop init condition increment room code deeper result body =>
          have inside : (Block.read ⟨room, code⟩).weight =
              Command.countAll (Block.read ⟨room, code⟩).commands +
                (Block.read ⟨room, code⟩).faults.length := rfl
          simp only [result, body, StatementResult.command?_ok, StatementResult.faults_ok,
            Command.countAll, Command.count, List.map_cons, List.sum_cons, inside]
          omega

theorem Block.commands_read (block : Block) :
    block.read.commands =
      block.statements.filterMap fun text => (block.readStatement text).command? := by
  rw [read, readBlockWith, List.filterMap_map]
  rfl

theorem Block.faults_read (block : Block) :
    block.read.faults = (cutFault? block.code).toList ++
      block.statements.flatMap fun text => (block.readStatement text).faults := by
  rw [read, faults_readBlockWith, Script.statementFaults, List.flatMap_map]
  rfl

theorem Block.weight_read (block : Block) :
    block.read.weight =
      total [block] + (block.bodies.map fun body => body.read.weight).sum := by
  have statements := block.countAll_add_faults block.statements
  have halt : (cutFault? block.code).toList.length = [block].countP isHalted := by
    rw [cutFault?, List.countP_singleton, isHalted]
    cases (cut (normalize block.code)).halted <;> rfl
  rw [Program.weight, commands_read, faults_read, List.length_append, halt, total, bodies,
    List.map_singleton, List.sum_singleton]
  omega

theorem Block.bodies_of_no_room (code : List Char) : Block.bodies ⟨0, code⟩ = [] := by
  refine List.filterMap_eq_nil_iff.mpr fun text _ => ?_
  cases Block.outcome ⟨0, code⟩ text with
  | rejected fault result noBody => exact noBody
  | simple command single result noBody => exact noBody
  | loop init condition increment room code deeper => cases deeper

theorem Block.room_of_mem_bodies {block body : Block} (member : body ∈ block.bodies) :
    block.room = body.room + 1 := by
  obtain ⟨text, -, found⟩ := List.mem_filterMap.mp member
  cases block.outcome text with
  | rejected fault result noBody => cases noBody.symm.trans found
  | simple command single result noBody => cases noBody.symm.trans found
  | loop init condition increment room code deeper result inBody =>
      cases inBody.symm.trans found
      exact deeper

theorem Block.total_blocksFrom (room : Nat) (code : List Char) :
    total (blocksFrom room code) = (Block.read ⟨room, code⟩).weight := by
  induction room generalizing code with
  | zero => rw [weight_read, bodies_of_no_room, blocksFrom, List.map_nil, List.sum_nil, Nat.add_zero]
  | succ room ih =>
      have inBodies : ∀ bodies : List Block, (∀ body ∈ bodies, body.room = room) →
          total (bodies.flatMap fun body => blocksFrom room body.code) =
            (bodies.map fun body => body.read.weight).sum := by
        intro bodies rooms
        induction bodies with
        | nil => rfl
        | cons body rest bodiesIH =>
            obtain ⟨rfl, others⟩ := List.forall_mem_cons.mp rooms
            rw [List.flatMap_cons, total_append, ih, bodiesIH others, List.map_cons, List.sum_cons]
      rw [blocksFrom, ← List.singleton_append, total_append, weight_read, inBodies]
      intro body member
      exact (Nat.succ.inj (room_of_mem_bodies member)).symm

/-! ## The faults of a block -/

theorem Block.faults_of_mem_bodies {block body : Block} (member : body ∈ block.bodies) :
    body.read.faults <:+: block.read.faults := by
  obtain ⟨text, among, found⟩ := List.mem_filterMap.mp member
  have ofStatement : (block.readStatement text).faults = body.read.faults := by
    cases block.outcome text with
    | rejected fault result noBody => cases noBody.symm.trans found
    | simple command single result noBody => cases noBody.symm.trans found
    | loop init condition increment room code deeper result inBody =>
        cases inBody.symm.trans found
        rw [result, StatementResult.faults_ok]
  have inBlock : (block.readStatement text).faults <:+:
      block.statements.flatMap fun text => (block.readStatement text).faults :=
    List.infix_of_mem_flatten (List.mem_map.mpr ⟨text, among, rfl⟩)
  rw [← ofStatement, faults_read]
  exact inBlock.trans (List.suffix_append _ _).isInfix

theorem Block.faults_of_mem_blocksFrom {room : Nat} {code : List Char} {block : Block}
    (member : block ∈ blocksFrom room code) :
    block.read.faults <:+: (Block.read ⟨room, code⟩).faults := by
  induction room generalizing code with
  | zero =>
      cases List.mem_singleton.mp member
      exact List.infix_refl _
  | succ room ih =>
      rcases List.mem_cons.mp member with rfl | deeper
      · exact List.infix_refl _
      · obtain ⟨⟨bodyRoom, bodyCode⟩, inBodies, inside⟩ := List.mem_flatMap.mp deeper
        obtain rfl : room = bodyRoom := Nat.succ.inj (room_of_mem_bodies inBodies)
        exact (ih inside).trans (faults_of_mem_bodies inBodies)

/-- A statement that is rejected leaves one fault, whatever is in it. -/
theorem Block.faults_around_rejected {block : Block} {before after : List (List Char)}
    {text : List Char} (divided : block.statements = before ++ text :: after)
    {fault : StatementFault} (rejected : (block.readStatement text).command = .error fault) :
    block.body? text = none ∧
      block.read.faults = (cutFault? block.code).toList ++
        (before.flatMap fun text => (block.readStatement text).faults) ++ [.statement fault] ++
          after.flatMap fun text => (block.readStatement text).faults := by
  cases block.outcome text with
  | rejected other result noBody =>
      rw [result] at rejected
      cases rejected
      refine ⟨noBody, ?_⟩
      rw [faults_read, divided, List.flatMap_append, List.flatMap_cons, result]
      simp only [StatementResult.plain, StatementResult.faults_error, List.nil_append,
        List.append_assoc]
  | simple command single result noBody => rw [result] at rejected; cases rejected
  | loop init condition increment room code deeper result body =>
      rw [result] at rejected
      cases rejected

end Script

/-- Every statement is accounted for once: the commands at every depth and the faults of a
program are together as many as the statements of all its blocks and the blocks whose
cutting was halted. The faults of each block stand together among those of the program,
and there a statement that is rejected, be it a loop, has one fault of its own and none
from a body. -/
theorem Program.every_statement_is_accounted_for (source : List Char) :
    Command.countAll (Program.ofText source).commands + (Program.ofText source).faults.length =
        ((Program.blocks source).map fun block => block.statements.length).sum +
          (Program.blocks source).countP Block.isHalted ∧
      ∀ block ∈ Program.blocks source,
        block.read.faults <:+: (Program.ofText source).faults ∧
        ∀ before text after fault, block.statements = before ++ text :: after →
          (block.readStatement text).command = .error fault →
          block.body? text = none ∧
            block.read.faults = (cutFault? block.code).toList ++
              (before.flatMap fun text => (block.readStatement text).faults) ++
              [.statement fault] ++
              after.flatMap fun text => (block.readStatement text).faults :=
  ⟨(Block.total_blocksFrom maxLoopNesting source).symm, fun _ member =>
    ⟨Block.faults_of_mem_blocksFrom member, fun _ _ _ _ divided rejected =>
      Block.faults_around_rejected divided rejected⟩⟩

/-- A loop whose body holds a loop that is rejected and one that is not complete. -/
theorem Program.every_statement_is_accounted_for_in_halted_body :
    let source := "for(i = 0; i < 1; i = 1)\x7bfor(;)\x7by = 1;z;\x7d x = 1; for\x7d".toList
    let body : Block := ⟨63, "for(;)\x7by = 1;z;\x7d x = 1; for".toList⟩
    let rejected := "for(;)\x7by = 1;z;\x7d".toList
    (Program.blocks source).countP Block.isHalted = 1 ∧ body ∈ Program.blocks source ∧
      Command.countAll (Program.ofText source).commands + (Program.ofText source).faults.length =
        ((Program.blocks source).map fun block => block.statements.length).sum +
          (Program.blocks source).countP Block.isHalted ∧
      body.read.faults <:+: (Program.ofText source).faults ∧
      body.read.faults = [.cut .noHeader, .statement (.malformedLoop (String.ofList rejected))] := by
  intro source body rejected
  have halted : (Program.blocks source).countP Block.isHalted = 1 := by decide +kernel
  have member : body ∈ Program.blocks source := by decide +kernel
  have divided : body.statements = [] ++ rejected :: ["x = 1;".toList] := by decide +kernel
  have account := Program.every_statement_is_accounted_for source
  obtain ⟨together, each⟩ := account.2 body member
  obtain ⟨-, faults⟩ := each _ _ _ _ divided rfl
  have trimmed : trim rejected = rejected := by decide +kernel
  have incomplete : (cut (normalize body.code)).halted = some .noHeader := by decide +kernel
  have accepted : (body.readStatement "x = 1;".toList).faults = [] := rfl
  refine ⟨halted, member, account.1, together, ?_⟩
  rw [faults, cutFault?, incomplete, trimmed, List.flatMap_singleton, accepted]
  rfl

end SceneScript
