import SceneScript.Proofs.Offset.Program

/-!
# A parser with a state

The parser of this module keeps two things from one statement to the next: the faults
that it has collected, and the count of loops around the statement that it reads. It
raises the count before the body of a loop and lowers it behind. Whatever it has read
before, it reads a statement as a new parser does, because every way through a
statement gives the count back. So it reads programs as `Program.ofText` does, where
nothing is kept.
-/

set_option autoImplicit false

namespace SceneScript.Script

open SceneScript.Text
open SceneScript.Offset (size)

structure Parser where
  faults : List Fault
  depth : Nat

namespace Parser

def new : Parser := ⟨[], 0⟩

def add (parser : Parser) (faults : List Fault) : Parser :=
  { parser with faults := parser.faults ++ faults }

def enter (parser : Parser) : Parser :=
  { parser with depth := parser.depth + 1 }

def leave (parser : Parser) : Parser :=
  { parser with depth := parser.depth - 1 }

/-- Keeps the command of a statement behind those before it, or reports its fault. -/
def collect (commands : List Command) :
    Except StatementFault Command × Parser → List Command × Parser
  | (.ok command, parser) => (commands ++ [command], parser)
  | (.error fault, parser) => (commands, parser.add [.statement fault])

theorem size_le_of_statement {code text : List Char}
    (member : text ∈ (cut (normalize code)).statements) : size text ≤ size code :=
  Nat.le_trans (Offset.size_le_of_mem_statements member) (Offset.size_normalize_le code)

theorem size_body_lt {statement : List Char} {loop : LoopText}
    (taken : loopText? statement = some loop) : size loop.body < size statement := by
  obtain ⟨front, shape⟩ := exists_body_of_loopText? taken
  have brace := Offset.length_encode_pos '{'
  rw [shape, Offset.size_append, Offset.size_cons, Offset.size_append]
  omega

mutual

/-- Reads a block. What ended its cutting is reported before any statement is read. -/
def readBlock (code : List Char) (parser : Parser) : List Command × Parser :=
  let cut := cut (normalize code)
  cut.statements.attach.foldl
    (fun state text => collect state.1 (readStatement text.1 state.2))
    ([], parser.add (cut.halted.map Fault.cut).toList)
termination_by (size code, 2)
decreasing_by
  have short := size_le_of_statement text.2
  grind

def readStatement (text : List Char) (parser : Parser) :
    Except StatementFault Command × Parser :=
  let statement := trim text
  if startsLoop statement then readLoop statement parser
  else (readSimple statement, parser)
termination_by (size text, 1)
decreasing_by
  have short := Offset.size_trim_le text
  grind

/-- Reads a loop. All that can be wrong with it is found before its body is entered. -/
def readLoop (statement : List Char) (parser : Parser) :
    Except StatementFault Command × Parser :=
  match _taken : loopText? statement with
  | none => (.error (.malformedLoop (String.ofList statement)), parser)
  | some loop =>
    if maxLoopNesting ≤ parser.depth then (.error .loopTooDeep, parser)
    else
      let (body, parser) := readBlock loop.body parser.enter
      (.ok (.loop (Clause.ofText loop.init) (Clause.ofText loop.condition)
        (Clause.ofText loop.increment) body), parser.leave)
termination_by (size statement, 0)
decreasing_by
  have short := size_body_lt ‹_›
  grind

end

def readAll (texts : List (List Char)) (parser : Parser) : List Command × Parser :=
  texts.foldl (fun state text => collect state.1 (state.2.readStatement text)) ([], parser)

theorem readBlock_eq_readAll (code : List Char) (parser : Parser) :
    parser.readBlock code =
      (parser.add (cutFault? code).toList).readAll (cut (normalize code)).statements := by
  rw [readBlock, readAll]
  let step (state : List Command × Parser) (text : List Char) :=
    collect state.1 (state.2.readStatement text)
  exact @List.foldl_attach _ _ _ step _

/-! ## The state between statements -/

/-- How many loops may still nest. -/
def room (parser : Parser) : Nat :=
  maxLoopNesting - parser.depth

theorem room_enter (parser : Parser) : parser.enter.room = parser.room - 1 := rfl

theorem add_nil (parser : Parser) : parser.add [] = parser := by
  rw [add, List.append_nil]

theorem add_add (parser : Parser) (first second : List Fault) :
    (parser.add first).add second = parser.add (first ++ second) := by
  simp only [add, List.append_assoc]

theorem leave_add_enter (parser : Parser) (faults : List Fault) :
    (parser.enter.add faults).leave = parser.add faults := rfl

/-- A statement is read as if the parser had no state: what is found in bodies is
added to the faults, and the depth is given back. -/
def ReadsStatements (room : Nat) : Prop :=
  ∀ (parser : Parser) (text : List Char), parser.room = room →
    parser.readStatement text =
      ((readStatementWith (bodyReader room) text).command,
        parser.add (readStatementWith (bodyReader room) text).bodyFaults)

theorem collect_add (commands : List Command) (result : StatementResult) (parser : Parser) :
    collect commands (result.command, parser.add result.bodyFaults) =
      (commands ++ result.command?.toList, parser.add result.faults) := by
  obtain ⟨command, bodyFaults⟩ := result
  cases command with
  | ok command => rfl
  | error fault =>
      simp only [collect, add_add, StatementResult.command?, StatementResult.faults,
        Option.toList_none, List.append_nil]

section
variable {room : Nat} (reads : ReadsStatements room)
include reads

theorem foldl_collect {parser : Parser} (same : parser.room = room) (commands : List Command)
    (texts : List (List Char)) :
    texts.foldl (fun state text => collect state.1 (state.2.readStatement text))
        (commands, parser) =
      (commands ++ texts.filterMap fun text =>
          (readStatementWith (bodyReader room) text).command?,
        parser.add (texts.flatMap fun text =>
          (readStatementWith (bodyReader room) text).faults)) := by
  induction texts generalizing parser commands with
  | nil => simp only [List.foldl_nil, List.filterMap_nil, List.flatMap_nil, List.append_nil, add_nil]
  | cons text rest ih =>
      have behind : (parser.add (readStatementWith (bodyReader room) text).faults).room = room :=
        same
      rw [List.foldl_cons, reads parser text same, collect_add, ih behind, add_add,
        List.append_assoc, List.flatMap_cons, List.filterMap_cons]
      cases (readStatementWith (bodyReader room) text).command? with
      | none => rfl
      | some command => rfl

theorem readBlock_of_readsStatements {parser : Parser} (same : parser.room = room)
    (code : List Char) :
    parser.readBlock code =
      ((readBlockWith (bodyReader room) code).commands,
        parser.add (readBlockWith (bodyReader room) code).faults) := by
  have reported : (parser.add (cutFault? code).toList).room = room := same
  rw [readBlock_eq_readAll, readAll, foldl_collect reads reported, add_add, faults_readBlockWith]
  simp only [List.nil_append, readBlockWith, statementFaults, List.filterMap_map,
    List.flatMap_map, Function.comp_def]

end

/-- One statement, if the bodies of loops are read as claimed. -/
theorem readsStatements_step {room : Nat}
    (inner : ∀ less, room = less + 1 → ReadsStatements less) : ReadsStatements room := by
  intro parser text same
  rw [readStatement, readStatementWith]
  split
  · rw [readLoop, Script.readLoop]
    split
    · rename_i malformed
      simp only [malformed, StatementResult.plain, add_nil]
    · rename_i loop taken
      simp only [taken]
      cases room with
      | zero =>
          have deep : maxLoopNesting ≤ parser.depth := Nat.le_of_sub_eq_zero same
          simp only [if_pos deep, bodyReader, StatementResult.plain, add_nil]
      | succ less =>
          have shallow : ¬ maxLoopNesting ≤ parser.depth := by
            rw [Parser.room] at same
            omega
          have entered : parser.enter.room = less := by
            rw [room_enter, same]
            rfl
          simp only [if_neg shallow, bodyReader,
            readBlock_of_readsStatements (inner less rfl) entered, leave_add_enter]
  · simp only [StatementResult.plain, add_nil]

theorem readsStatements (room : Nat) : ReadsStatements room := by
  induction room with
  | zero => exact readsStatements_step fun less impossible => by cases impossible
  | succ room ih =>
      refine readsStatements_step fun less same => ?_
      cases same
      exact ih

theorem readStatement_eq (parser : Parser) (text : List Char) :
    parser.readStatement text =
      ((readStatementWith (bodyReader parser.room) text).command,
        parser.add (readStatementWith (bodyReader parser.room) text).bodyFaults) :=
  readsStatements parser.room parser text rfl

theorem readBlock_eq (parser : Parser) (code : List Char) :
    parser.readBlock code =
      ((readBlockWith (bodyReader parser.room) code).commands,
        parser.add (readBlockWith (bodyReader parser.room) code).faults) :=
  readBlock_of_readsStatements (readsStatements parser.room) rfl code

/-! ## Calls on one parser -/

theorem readStatement_of_outside {parser : Parser} (outside : parser.depth = 0)
    (text : List Char) :
    parser.readStatement text =
      ((Script.readStatement text).command, parser.add (Script.readStatement text).bodyFaults) := by
  have full : parser.room = maxLoopNesting := by rw [room, outside, Nat.sub_zero]
  rw [readStatement_eq, full, Script.readStatement]

theorem readStatement_new (text : List Char) :
    new.readStatement text =
      ((Script.readStatement text).command, new.add (Script.readStatement text).bodyFaults) :=
  readStatement_of_outside rfl text

/-- A parser after it has read statements, whatever came of them. -/
def afterCalls (texts : List (List Char)) (parser : Parser) : Parser :=
  texts.foldl (fun parser text => (parser.readStatement text).2) parser

theorem afterCalls_of_outside {parser : Parser} (outside : parser.depth = 0)
    (texts : List (List Char)) :
    parser.afterCalls texts =
      parser.add (texts.flatMap fun text => (Script.readStatement text).bodyFaults) := by
  induction texts generalizing parser with
  | nil => rw [afterCalls, List.foldl_nil, List.flatMap_nil, add_nil]
  | cons text rest ih =>
      have called : parser.afterCalls (text :: rest) =
          (parser.add (Script.readStatement text).bodyFaults).afterCalls rest := by
        rw [afterCalls, List.foldl_cons, readStatement_of_outside outside, afterCalls]
      have stillOutside : (parser.add (Script.readStatement text).bodyFaults).depth = 0 := outside
      rw [called, ih stillOutside, add_add, List.flatMap_cons]

theorem depth_afterCalls {parser : Parser} (outside : parser.depth = 0)
    (texts : List (List Char)) : (parser.afterCalls texts).depth = 0 := by
  rw [afterCalls_of_outside outside]
  exact outside

theorem readStatements_concat (collected : List Fault) (calls : List (List Char))
    (text : List Char) :
    readStatements collected (calls ++ [text]) =
      readStatements collected calls ++
        [(Script.readStatement text, collected ++
          (calls ++ [text]).flatMap fun text => (Script.readStatement text).bodyFaults)] := by
  induction calls generalizing collected with
  | nil => simp only [List.nil_append, readStatements, List.flatMap_singleton]
  | cons call rest ih =>
      simp only [List.cons_append, readStatements, ih, List.flatMap_cons, List.append_assoc]

/-! ## Programs -/

theorem command?_eq_toOption (result : StatementResult) :
    result.command? = result.command.toOption := by
  obtain ⟨command, bodyFaults⟩ := result
  cases command with
  | ok command => rfl
  | error fault => rfl

theorem readAll_new (texts : List (List Char)) :
    (new.readAll texts).1 = texts.filterMap fun text => (new.readStatement text).1.toOption := by
  have same : ∀ text, (new.readStatement text).1.toOption =
      (readStatementWith (bodyReader maxLoopNesting) text).command? := by
    intro text
    rw [readStatement_new, command?_eq_toOption, Script.readStatement]
  simp only [same]
  rw [readAll, foldl_collect (readsStatements maxLoopNesting) rfl, List.nil_append]

theorem readAll_of_rejected {text : List Char} {fault : StatementFault}
    (rejected : (new.readStatement text).1 = .error fault) (before after : List (List Char)) :
    (new.readAll (before ++ text :: after)).1 = (new.readAll (before ++ after)).1 := by
  simp only [readAll_new, List.filterMap_append, List.filterMap_cons, rejected,
    Except.toOption]

theorem ofText_eq_readBlock (source : List Char) :
    Program.ofText source = ⟨(new.readBlock source).1, (new.readBlock source).2.faults⟩ := by
  rw [readBlock_eq]
  rfl

theorem commands_ofText (source : List Char) :
    (Program.ofText source).commands = (new.readAll (cut (normalize source)).statements).1 := by
  rw [readAll, foldl_collect (readsStatements maxLoopNesting) rfl, List.nil_append, Program.ofText,
    readBlockWith, List.filterMap_map]
  rfl

/-- A parser reads each statement as if it were new, whatever it has read before: it gives
the same result, puts the faults that a new parser would collect behind those that it
has, and is outside of all loops again. `readStatements` gives out what such calls give.
So a program has the commands of its statements read one by one, and a statement that is
rejected may be left out. -/
theorem statements_are_independent :
    (∀ calls text,
      ((new.afterCalls calls).readStatement text).1 = (new.readStatement text).1 ∧
      ((new.afterCalls calls).readStatement text).2.faults =
        (new.afterCalls calls).faults ++ (new.readStatement text).2.faults ∧
      ((new.afterCalls calls).readStatement text).2.depth = 0 ∧
      readStatements [] (calls ++ [text]) = readStatements [] calls ++
        [(⟨(new.readStatement text).1, (new.readStatement text).2.faults⟩,
          (new.afterCalls (calls ++ [text])).faults)]) ∧
    (∀ source,
      Program.ofText source = ⟨(new.readBlock source).1, (new.readBlock source).2.faults⟩ ∧
      (Program.ofText source).commands = (new.readAll (cut (normalize source)).statements).1 ∧
      (Program.ofText source).commands = (cut (normalize source)).statements.filterMap fun text =>
        (new.readStatement text).1.toOption) ∧
    ∀ before text after fault, (new.readStatement text).1 = .error fault →
      (new.readAll (before ++ text :: after)).1 = (new.readAll (before ++ after)).1 := by
  refine ⟨fun calls text => ?_, fun source => ⟨ofText_eq_readBlock source,
    commands_ofText source, (commands_ofText source).trans (readAll_new _)⟩,
    fun before text after fault rejected => readAll_of_rejected rejected before after⟩
  have outside : (new.afterCalls calls).depth = 0 := depth_afterCalls rfl calls
  rw [readStatement_new, readStatement_of_outside outside, readStatements_concat,
    afterCalls_of_outside rfl (calls ++ [text])]
  exact ⟨rfl, rfl, outside, rfl⟩

/-- The first statement is a loop whose body holds one that is rejected. The second is
rejected for its header, and leaving it out keeps the commands. -/
theorem statements_are_independent_of_rejected_loop :
    let loop := "for(i = 0; i < 1; i = 1)\x7bfor(;)\x7b\x7dx = i;\x7d".toList
    let malformed := "for(i = 0; i < 1)\x7by = 1;\x7d".toList
    let simple := "y = 2;".toList
    (new.readStatement malformed).1 = .error (.malformedLoop (String.ofList malformed)) ∧
      (new.readAll ([loop] ++ malformed :: [simple])).1 = (new.readAll ([loop] ++ [simple])).1 := by
  intro loop malformed simple
  have rejected : (new.readStatement malformed).1 =
      .error (.malformedLoop (String.ofList malformed)) := by
    rw [readStatement_new]
    rfl
  exact ⟨rejected, statements_are_independent.2.2 [loop] malformed [simple] _ rejected⟩

end Parser

end SceneScript.Script
