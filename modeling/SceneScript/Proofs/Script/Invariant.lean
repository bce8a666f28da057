import SceneScript.Proofs.Script.Execution
import SceneScript.Proofs.Script.Piece
import SceneScript.Proofs.Text.Line

/-!
# Invariants of reading and of running

Every block of a script is brought to normal form before it is cut, so no statement has a
line feed, however deep it stands. What holds of the commands and the faults of such
statements holds of a whole program.

A property of the variables and the scene that every clause and every command without a
body keeps is kept by a whole run, loops of any length included. Along with it goes a
property of the faults that are reported on the way.
-/

set_option autoImplicit false

namespace SceneScript

open SceneScript.Text SceneScript.Script

/-! ## Reading -/

theorem Script.lineFeed_not_mem_of_mem_statements {code text : List Char}
    (member : text ∈ (cut (normalize code)).statements) : '\n' ∉ text :=
  fun inside => (isNormal_normalize code).plain.noLineFeed
    ((within_of_mem_statements member).subset inside)

theorem Script.subset_of_argumentText? {text inner : List Char}
    (found : argumentText? text = some inner) : inner ⊆ text := by
  unfold argumentText? at found
  split at found
  · simp only at found
    split at found
    · cases found
      exact fun c inside => List.mem_cons_of_mem _ (List.dropLast_subset _ inside)
    · cases found
  · cases found

theorem Text.isName_leadingWord {text : List Char} (starts : text.head?.any isWordStart = true) :
    IsName (leadingWord text) := by
  cases text with
  | nil => cases starts
  | cons c rest =>
      have first : isWordStart c = true := starts
      rw [leadingWord, List.takeWhile_cons_of_pos (isWordChar_of_isWordStart first)]
      exact ⟨first, fun d member => List.mem_takeWhile_imp member⟩

/-- The text that a fault quotes. -/
def Script.StatementFault.text? : StatementFault → Option String
  | .malformedLoop statement => some statement
  | .loopTooDeep => none
  | .unterminated statement => some statement
  | .malformedCall body => some body
  | .wrongArity _ _ body => some body
  | .unknown body => some body

/-- What statements on one line are read as: the commands, and the faults of those that
are none. -/
structure ReadInvariant where
  allows : Command → Prop
  reports : Fault → Prop
  reports_cut : ∀ fault : CutFault, reports (.cut fault)
  reports_statement : ∀ {fault : StatementFault}, (∀ text ∈ fault.text?, IsOneLine text) →
    reports (.statement fault)
  allows_call : ∀ {method : Method} {arguments : List String} {command : Command},
    (∀ argument ∈ arguments, IsOneLine argument) → callCommand? method arguments = some command →
      allows command
  allows_assign : ∀ {target : String} {value : List Char}, IsName target.toList → '\n' ∉ value →
    allows (.assign target (Clause.ofText value))
  allows_loop : ∀ {init condition increment : List Char} {body : List Command},
    '\n' ∉ init → '\n' ∉ condition → '\n' ∉ increment → (∀ command ∈ body, allows command) →
      allows (.loop (Clause.ofText init) (Clause.ofText condition) (Clause.ofText increment) body)

namespace ReadInvariant

variable (invariant : ReadInvariant)

def Accepts (program : Program) : Prop :=
  (∀ command ∈ program.commands, invariant.allows command) ∧
    ∀ fault ∈ program.faults, invariant.reports fault

/-- What became of a statement without a body. -/
def AcceptsSimple : Except StatementFault Command → Prop
  | .ok command => invariant.allows command
  | .error fault => invariant.reports (.statement fault)

def AcceptsResult (result : StatementResult) : Prop :=
  (∀ command ∈ result.command?, invariant.allows command) ∧
    ∀ fault ∈ result.faults, invariant.reports fault

section
variable {invariant}

theorem acceptsResult_ok {command : Command} {bodyFaults : List Fault}
    (allowed : invariant.allows command)
    (reported : ∀ fault ∈ bodyFaults, invariant.reports fault) :
    invariant.AcceptsResult ⟨.ok command, bodyFaults⟩ :=
  ⟨fun _ same => Option.some.inj same ▸ allowed, reported⟩

theorem acceptsResult_error {fault : StatementFault}
    (reported : invariant.reports (.statement fault)) :
    invariant.AcceptsResult (.plain (.error fault)) :=
  ⟨(fun _ none => nomatch none), List.forall_mem_singleton.mpr reported⟩

theorem reports_of_text? {fault : StatementFault} {text : List Char} (noLineFeed : '\n' ∉ text)
    (quoted : fault.text? = some (String.ofList text)) : invariant.reports (.statement fault) := by
  refine invariant.reports_statement fun other same => ?_
  cases quoted.symm.trans same
  exact isOneLine_ofList.mpr noLineFeed

end

theorem acceptsSimple_readCall {call body : List Char} (ofCall : '\n' ∉ call)
    (ofBody : '\n' ∉ body) : invariant.AcceptsSimple (readCall call (String.ofList body)) := by
  unfold readCall
  split
  · exact reports_of_text? ofBody rfl
  rename_i inner found
  split
  · exact reports_of_text? ofBody rfl
  simp only
  split
  · exact reports_of_text? ofBody rfl
  · rename_i command known
    refine invariant.allows_call (fun argument member => ?_) known
    obtain ⟨part, isPart, rfl⟩ := List.mem_map.mp member
    rw [isOneLine_ofList]
    intro inside
    have inInner : '\n' ∈ inner := subset_of_mem_splitOn isPart ((trim_within part).subset inside)
    have behindWord : '\n' ∈ afterWord call :=
      (List.dropWhile_suffix _).subset (subset_of_argumentText? found inInner)
    exact ofCall ((List.dropWhile_suffix _).subset behindWord)

theorem allows_readAssignment? {body : List Char} {command : Command} (noLineFeed : '\n' ∉ body)
    (read : readAssignment? body = some command) : invariant.allows command := by
  unfold readAssignment? at read
  split at read
  · cases read
  rename_i starts
  split at read
  · rename_i rest behind
    split at read
    · cases read
    · cases read
      refine invariant.allows_assign ?_ fun inside => ?_
      · rw [String.toList_ofList]
        exact isName_leadingWord (by simpa using starts)
      · have inRest : '\n' ∈ rest := (trim_within rest).subset inside
        have behindWord : '\n' ∈ skipBlanks (afterWord body) :=
          behind ▸ List.mem_cons_of_mem '=' inRest
        exact noLineFeed
          ((List.dropWhile_suffix _).subset ((List.dropWhile_suffix _).subset behindWord))
  · cases read

theorem acceptsSimple_readSimple {statement : List Char} (noLineFeed : '\n' ∉ statement) :
    invariant.AcceptsSimple (readSimple statement) := by
  have ofBody : '\n' ∉ trim statement.dropLast := fun inside =>
    noLineFeed (List.dropLast_subset _ ((trim_within _).subset inside))
  unfold readSimple
  split
  · exact reports_of_text? noLineFeed rfl
  simp only
  split
  · exact invariant.acceptsSimple_readCall (fun inside => ofBody (List.drop_subset _ _ inside)) ofBody
  split
  · exact reports_of_text? ofBody rfl
  · rename_i read
    exact invariant.allows_readAssignment? ofBody read

section
variable {readBody : Option (List Char → Program)}
  (inner : ∀ read ∈ readBody, ∀ code, invariant.Accepts (read code))
include inner

theorem acceptsResult_readLoop {statement : List Char} (noLineFeed : '\n' ∉ statement) :
    invariant.AcceptsResult (readLoop readBody statement) := by
  unfold readLoop
  split
  · exact acceptsResult_error (reports_of_text? noLineFeed rfl)
  rename_i loop taken
  split
  · exact acceptsResult_error (invariant.reports_statement fun _ none => nomatch none)
  rename_i read
  have ofBody := inner read rfl loop.body
  have ofPart : ∀ part ∈ [loop.init, loop.condition, loop.increment], '\n' ∉ part :=
    fun part member inside => noLineFeed (clauses_subset_of_loopText? taken part member inside)
  refine acceptsResult_ok ?_ ofBody.2
  exact invariant.allows_loop (ofPart _ (by simp)) (ofPart _ (by simp)) (ofPart _ (by simp)) ofBody.1

theorem acceptsResult_readStatementWith {text : List Char} (noLineFeed : '\n' ∉ text) :
    invariant.AcceptsResult (readStatementWith readBody text) := by
  have trimmed : '\n' ∉ trim text := fun inside => noLineFeed ((trim_within text).subset inside)
  unfold readStatementWith
  simp only
  split
  · exact invariant.acceptsResult_readLoop inner trimmed
  · have accepted := invariant.acceptsSimple_readSimple trimmed
    cases read : readSimple (trim text) with
    | error fault =>
        rw [read] at accepted
        exact acceptsResult_error accepted
    | ok command =>
        rw [read] at accepted
        exact acceptsResult_ok accepted (List.forall_mem_nil _)

/-- One block, if the bodies of its loops are in order. -/
theorem accepts_readBlockWith (code : List Char) :
    invariant.Accepts (readBlockWith readBody code) := by
  have each : ∀ text ∈ (cut (normalize code)).statements,
      invariant.AcceptsResult (readStatementWith readBody text) :=
    fun text member =>
      invariant.acceptsResult_readStatementWith inner (lineFeed_not_mem_of_mem_statements member)
  refine ⟨fun command member => ?_, fun fault member => ?_⟩
  · simp only [readBlockWith, List.mem_filterMap, List.mem_map] at member
    obtain ⟨result, ⟨text, isStatement, rfl⟩, isCommand⟩ := member
    exact (each text isStatement).1 command isCommand
  · simp only [readBlockWith, List.mem_append, List.mem_flatMap, List.mem_map] at member
    obtain ofCut | ⟨result, ⟨text, isStatement, rfl⟩, ofStatement⟩ := member
    · obtain ⟨reason, -, rfl⟩ := Option.map_eq_some_iff.mp (Option.mem_toList.mp ofCut)
      exact invariant.reports_cut reason
    · exact (each text isStatement).2 fault ofStatement

end

theorem accepts_bodyReader (room : Nat) :
    ∀ read ∈ bodyReader room, ∀ code, invariant.Accepts (read code) := by
  induction room with
  | zero => exact fun read member => nomatch member
  | succ room ih =>
      intro read member
      cases Option.mem_some.mp member
      exact invariant.accepts_readBlockWith ih

theorem accepts_ofText (source : List Char) : invariant.Accepts (Program.ofText source) :=
  invariant.accepts_readBlockWith (invariant.accepts_bodyReader maxLoopNesting) source

end ReadInvariant

/-! ## Running -/

/-- What the allowed clauses and commands keep, and what they may report. -/
structure RunInvariant (defaults : ObjectDefaults) where
  holds : Stage → Prop
  reports : EvalFault → Prop
  allowsClause : Clause → Prop
  allows : Command → Prop
  holds_eval : ∀ {clause : Clause} {stage after : Stage} {outcome : Except EvalFault Value},
    allowsClause clause → holds stage → stage.eval clause = (outcome, after) → holds after
  reports_eval : ∀ {clause : Clause} {stage after : Stage} {fault : EvalFault},
    allowsClause clause → stage.eval clause = (.error fault, after) → reports fault
  holds_simple : ∀ {command : Command} {before after : Stage} {fault : Option EvalFault},
    command.isLoop = false → allows command → holds before →
      command.run defaults 0 (before.world #[]) = some (after.world #[], fault) →
        holds after ∧ ∀ reason ∈ fault, reports reason
  allows_loop : ∀ {init condition increment : Clause} {body : List Command},
    allows (.loop init condition increment body) →
      allowsClause init ∧ allowsClause condition ∧ allowsClause increment ∧
        ∀ command ∈ body, allows command

namespace RunInvariant

variable {defaults : ObjectDefaults} (invariant : RunInvariant defaults)

/-- How a part of a run ends: where it leads, and what it has reported. -/
def Ends (after : Stage) (reported : List EvalFault) : Prop :=
  invariant.holds after ∧ ∀ fault ∈ reported, invariant.reports fault

section
variable {invariant}

theorem Ends.of_holds {after : Stage} (held : invariant.holds after) : invariant.Ends after [] :=
  ⟨held, List.forall_mem_nil _⟩

theorem Ends.append {middle after : Stage} {reported others : List EvalFault}
    (first : invariant.Ends middle reported) (second : invariant.Ends after others) :
    invariant.Ends after (reported ++ others) :=
  ⟨second.1, List.forall_mem_append.mpr ⟨first.2, second.2⟩⟩

theorem Ends.of_fault {clause : Clause} {stage after : Stage} {fault : EvalFault}
    (allowed : invariant.allowsClause clause) (held : invariant.holds stage)
    (failed : stage.eval clause = (.error fault, after)) : invariant.Ends after [fault] :=
  ⟨invariant.holds_eval allowed held failed,
    List.forall_mem_singleton.mpr (invariant.reports_eval allowed failed)⟩

end

section
variable {body : Stage → List EvalFault → Stage → Prop}
  (pass : ∀ before reported after, body before reported after → invariant.holds before →
    invariant.Ends after reported)
include pass

theorem ends_of_passes {condition increment : Clause}
    (ofCondition : invariant.allowsClause condition)
    (ofIncrement : invariant.allowsClause increment) {before after : Stage}
    {reported : List EvalFault} {fault : Option EvalFault}
    (passes : Loop.Passes condition increment body before reported after fault)
    (start : invariant.holds before) : invariant.Ends after (reported ++ fault.toList) := by
  induction passes with
  | conditionFails tested => exact .of_fault ofCondition start tested
  | finished tested _ => exact .of_holds (invariant.holds_eval ofCondition start tested)
  | incrementFails tested _ ran stepped =>
      have held := invariant.holds_eval ofCondition start tested
      have passed := pass _ _ _ ran held
      exact passed.append (.of_fault ofIncrement passed.1 stepped)
  | again tested _ ran stepped _ ih =>
      have held := invariant.holds_eval ofCondition start tested
      have passed := pass _ _ _ ran held
      have others := ih (invariant.holds_eval ofIncrement passed.1 stepped)
      rw [List.append_assoc]
      exact passed.append others

theorem ends_of_loop {init condition increment : Clause}
    (ofInit : invariant.allowsClause init) (ofCondition : invariant.allowsClause condition)
    (ofIncrement : invariant.allowsClause increment) {before after : Stage}
    {reported : List EvalFault} {fault : Option EvalFault}
    (runs : Loop.Runs init condition increment body before reported after fault)
    (start : invariant.holds before) : invariant.Ends after (reported ++ fault.toList) := by
  cases runs with
  | initFails started => exact .of_fault ofInit start started
  | passes started passes =>
      exact invariant.ends_of_passes pass ofCondition ofIncrement passes
        (invariant.holds_eval ofInit start started)

end

private theorem ends_of_each {commands : List Command}
    (each : ∀ command ∈ commands, ∀ before reported after fault,
      command.Runs defaults before reported after fault → invariant.allows command →
        invariant.holds before → invariant.Ends after (reported ++ fault.toList))
    (allowed : ∀ command ∈ commands, invariant.allows command) (before : Stage)
    (reported : List EvalFault) (after : Stage)
    (runs : Command.RunsAll defaults commands before reported after)
    (start : invariant.holds before) : invariant.Ends after reported := by
  induction commands generalizing before reported with
  | nil =>
      simp only [Command.RunsAll] at runs
      obtain ⟨rfl, rfl⟩ := runs
      exact .of_holds start
  | cons command rest ih =>
      simp only [Command.RunsAll] at runs
      obtain ⟨first, middle, fault, others, runsFirst, runsRest, rfl⟩ := runs
      obtain ⟨eachFirst, eachRest⟩ := List.forall_mem_cons.mp each
      obtain ⟨allowedFirst, allowedRest⟩ := List.forall_mem_cons.mp allowed
      have head := eachFirst before first middle fault runsFirst allowedFirst start
      exact head.append (ih eachRest allowedRest middle others runsRest head.1)

theorem ends_of_runs (command : Command) (before : Stage) (reported : List EvalFault)
    (after : Stage) (fault : Option EvalFault)
    (runs : command.Runs defaults before reported after fault)
    (allowed : invariant.allows command) (start : invariant.holds before) :
    invariant.Ends after (reported ++ fault.toList) := by
  induction command using Command.induct generalizing before reported after fault with
  | simple command isSimple =>
      obtain ⟨rfl, ran⟩ := (Command.runs_of_simple isSimple).mp runs
      obtain ⟨held, reportable⟩ := invariant.holds_simple isSimple allowed start ran
      exact ⟨held, fun reason member => reportable reason (Option.mem_toList.mp member)⟩
  | loop init condition increment body ih =>
      simp only [Command.Runs] at runs
      obtain ⟨ofInit, ofCondition, ofIncrement, ofBody⟩ := invariant.allows_loop allowed
      exact invariant.ends_of_loop (invariant.ends_of_each ih ofBody) ofInit ofCondition
        ofIncrement runs start

/-- What each part of a run keeps, the whole run keeps. -/
theorem ends_of_runsAll {commands : List Command} {before after : Stage}
    {reported : List EvalFault} (runs : Command.RunsAll defaults commands before reported after)
    (allowed : ∀ command ∈ commands, invariant.allows command) (start : invariant.holds before) :
    invariant.Ends after reported :=
  invariant.ends_of_each (fun command _ => invariant.ends_of_runs command) allowed before reported
    after runs start

end RunInvariant

end SceneScript
