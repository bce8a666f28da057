import SceneScript.Proofs.Script.Account
import SceneScript.Proofs.Script.Execution
import SceneScript.Proofs.Session

/-!
# The log of a session

Loading a script first logs what reading it found: faults in the form of the script and
unknown commands, in the order of the blocks. Everything behind comes from running
commands and is a fault of evaluation, in the order of the run. Executing commands later
adds faults of evaluation only.
-/

set_option autoImplicit false

namespace SceneScript

open SceneScript.Script

/-! ## Faults of reading -/

/-- The fault can come from reading a script: it is no fault of evaluation. -/
def Fault.IsOfReading (fault : Fault) : Prop :=
  fault.kind = .structural ∨ fault.kind = .unknownCommand

theorem Fault.isOfReading_statement (fault : StatementFault) :
    (Fault.statement fault).IsOfReading := by
  rw [IsOfReading, kind]
  split
  · exact .inl rfl
  · exact .inr rfl

theorem isOfReading_of_mem_cutFault? {code : List Char} {fault : Fault}
    (member : fault ∈ (cutFault? code).toList) : fault.IsOfReading := by
  rw [cutFault?, Option.mem_toList, Option.map_eq_some_iff] at member
  obtain ⟨reason, -, rfl⟩ := member
  exact .inl rfl

/-- One block, if the faults in the bodies of its loops come from reading. -/
theorem Script.Block.isOfReading_step {block : Block}
    (inner : ∀ room code, block.room = room + 1 →
      ∀ fault ∈ (Block.read ⟨room, code⟩).faults, fault.IsOfReading) :
    ∀ fault ∈ block.read.faults, fault.IsOfReading := by
  intro fault member
  rw [faults_read, List.mem_append, List.mem_flatMap] at member
  rcases member with ofCut | ⟨text, -, ofStatement⟩
  · exact isOfReading_of_mem_cutFault? ofCut
  · cases block.outcome text with
    | rejected reason result noBody =>
        rw [result] at ofStatement
        cases List.mem_singleton.mp ofStatement
        exact Fault.isOfReading_statement reason
    | simple command single result noBody =>
        rw [result] at ofStatement
        cases ofStatement
    | loop init condition increment room code deeper result body =>
        rw [result] at ofStatement
        exact inner room code deeper fault ofStatement

theorem Script.Block.isOfReading_of_mem_faults (block : Block) :
    ∀ fault ∈ block.read.faults, fault.IsOfReading := by
  obtain ⟨room, code⟩ := block
  induction room generalizing code with
  | zero => exact isOfReading_step fun room code deeper => by cases deeper
  | succ room ih =>
      refine isOfReading_step fun less body deeper => ?_
      cases deeper
      exact ih body

/-! ## Faults of runs -/

theorem kind_of_mem_map_eval {reported : List EvalFault} :
    ∀ fault ∈ reported.map Fault.eval, fault.kind = .evaluation := by
  intro fault member
  obtain ⟨reason, -, rfl⟩ := List.mem_map.mp member
  rfl

namespace Session

def stage (session : Session) : Stage :=
  ⟨session.store, session.scene⟩

theorem executes_iff {session final : Session} {commands : List Command} :
    session.Executes commands final ↔ ∃ reported after,
      Command.RunsAll session.config.defaults commands session.stage reported after ∧
        final = session.withWorld (after.logged session.diagnostics reported) := by
  have start : session.world = session.stage.world session.diagnostics := rfl
  constructor
  · rintro ⟨bound, executed⟩
    unfold execute at executed
    split at executed
    · cases executed
    · rename_i world ran
      cases executed
      obtain ⟨reported, after, runs, rfl⟩ := Command.exists_runAll_iff.mp ⟨bound, start ▸ ran⟩
      exact ⟨reported, after, runs, rfl⟩
  · rintro ⟨reported, after, runs, rfl⟩
    obtain ⟨bound, ran⟩ := Command.exists_runAll_iff.mpr
      ⟨reported, after, runs, rfl⟩
    exact ⟨bound, by rw [execute, start, ran]⟩

theorem exists_executes_of_loads {session final : Session} {source : String}
    (loaded : session.Loads source final) :
    ∃ ran, Executes (Program.ofText source.toList).commands
        { session.reset with diagnostics := (Program.ofText source.toList).faults.toArray } ran ∧
      final = { ran with selection := ran.scene.firstName? } := by
  obtain ⟨bound, loaded⟩ := loaded
  unfold load at loaded
  simp only at loaded
  split at loaded
  · cases loaded
  · rename_i ran executed
    cases loaded
    exact ⟨ran, ⟨bound, executed⟩, rfl⟩

theorem diagnostics_of_executes {session final : Session} {commands : List Command}
    (executed : session.Executes commands final) :
    ∃ reported,
      Command.RunsAll session.config.defaults commands session.stage reported final.stage ∧
      final.diagnostics.toList = session.diagnostics.toList ++ reported.map Fault.eval := by
  obtain ⟨reported, after, runs, rfl⟩ := executes_iff.mp executed
  refine ⟨reported, runs, ?_⟩
  simp only [withWorld, Stage.logged, Stage.world, Array.toList_append]

/-- After a script has been loaded, the diagnostics are the faults of reading it, which
are structural or unknown commands, and behind them the faults of running it in the
order of the run, which are faults of evaluation. The faults of each block stand
together, and the one that ended its cutting comes first. Executing commands puts faults
of evaluation behind the diagnostics and nothing else. -/
theorem diagnostics_of_loads {session final : Session} {source : String}
    (loaded : session.Loads source final) :
    (∃ reported,
      Command.RunsAll session.config.defaults (Program.ofText source.toList).commands
        ⟨.empty, .empty⟩ reported final.stage ∧
      (∀ others after, Command.RunsAll session.config.defaults
        (Program.ofText source.toList).commands ⟨.empty, .empty⟩ others after →
          others = reported) ∧
      final.diagnostics.toList =
        (Program.ofText source.toList).faults ++ reported.map Fault.eval ∧
      ∀ fault ∈ reported.map Fault.eval, fault.kind = .evaluation) ∧
    (∀ fault ∈ (Program.ofText source.toList).faults,
      fault.kind = .structural ∨ fault.kind = .unknownCommand) ∧
    (∀ block ∈ Program.blocks source.toList,
      block.read.faults <:+: (Program.ofText source.toList).faults ∧
      block.read.faults = (cutFault? block.code).toList ++
        block.statements.flatMap fun text => (block.readStatement text).faults) ∧
    ∀ later commands after, Executes commands later after → ∃ reported,
      Command.RunsAll later.config.defaults commands later.stage reported after.stage ∧
      after.diagnostics.toList = later.diagnostics.toList ++ reported.map Fault.eval ∧
      ∀ fault ∈ reported.map Fault.eval, fault.kind = .evaluation := by
  refine ⟨?_, Block.isOfReading_of_mem_faults ⟨maxLoopNesting, source.toList⟩,
    fun block member => ⟨Block.faults_of_mem_blocksFrom member, block.faults_read⟩, ?_⟩
  · obtain ⟨ran, executed, rfl⟩ := exists_executes_of_loads loaded
    obtain ⟨reported, runs, log⟩ := diagnostics_of_executes executed
    exact ⟨reported, runs, fun others after runsToo => (runsToo.unique runs).1, log,
      kind_of_mem_map_eval⟩
  · intro later commands after executed
    obtain ⟨reported, runs, log⟩ := diagnostics_of_executes executed
    exact ⟨reported, runs, log, kind_of_mem_map_eval⟩

/-- A loop reports a fault in each of two passes, behind the fault of a statement that
stands below it. -/
theorem diagnostics_of_loads_of_failing_loop :
    let source := "for(i = 0; i < 2; i = i + 1)\x7bx = y;\x7dz;"
    ∃ final, (new {}).Loads source final ∧
      final.diagnostics.toList.map Fault.kind = [.unknownCommand, .evaluation, .evaluation] ∧
      ∃ reported : List EvalFault, final.diagnostics.toList =
        (Program.ofText source.toList).faults ++ reported.map Fault.eval := by
  intro source
  have kinds : ((new {}).load 2 source).map (fun final => final.diagnostics.toList.map Fault.kind) =
      some [.unknownCommand, .evaluation, .evaluation] := by
    decide +kernel
  obtain ⟨final, loaded, kinds⟩ := Option.map_eq_some_iff.mp kinds
  obtain ⟨⟨reported, -, -, log, -⟩, -⟩ := diagnostics_of_loads ⟨2, loaded⟩
  exact ⟨final, ⟨2, loaded⟩, kinds, reported, log⟩

end Session

end SceneScript
