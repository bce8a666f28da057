import SceneScript.Proofs.Script.Run

/-!
# What is reported, and in which order

`Command.RunsAll` says what a run of commands does without a bound on passes and without
a log: it relates the variables and the scene before the run to those afterwards, and
gives the faults in the order in which they occur. The faults of a body come pass by
pass, before the fault of a clause that ends the loop, and these before what the next
command reports. Bounded runs finish exactly as this relation says, and put its faults
behind the diagnostics.
-/

set_option autoImplicit false

namespace SceneScript

/-- What commands read and change, but for the diagnostics. -/
structure Stage where
  store : Store
  scene : Scene

namespace Stage

def eval (stage : Stage) (clause : Clause) : Except EvalFault Value × Stage :=
  let evaluated := clause.eval stage.store
  (evaluated.1, { stage with store := evaluated.2 })

def world (stage : Stage) (diagnostics : Array Fault) : World :=
  ⟨stage.store, stage.scene, diagnostics⟩

end Stage

/-! ## Runs without a bound -/

namespace Loop

/-- The passes of a loop, from a test of its condition on. -/
inductive Passes (condition increment : Clause) (body : Stage → List EvalFault → Stage → Prop) :
    Stage → List EvalFault → Stage → Option EvalFault → Prop
  | conditionFails {before after : Stage} {fault : EvalFault}
      (tested : before.eval condition = (.error fault, after)) :
      Passes condition increment body before [] after (some fault)
  | finished {before after : Stage} {value : Value}
      (tested : before.eval condition = (.ok value, after)) (stops : ¬ value.truthy = true) :
      Passes condition increment body before [] after none
  | incrementFails {before middle passed after : Stage} {value : Value}
      {reported : List EvalFault} {fault : EvalFault}
      (tested : before.eval condition = (.ok value, middle)) (goesOn : value.truthy = true)
      (pass : body middle reported passed)
      (stepped : passed.eval increment = (.error fault, after)) :
      Passes condition increment body before reported after (some fault)
  | again {before middle passed next after : Stage} {value step : Value}
      {reported others : List EvalFault} {fault : Option EvalFault}
      (tested : before.eval condition = (.ok value, middle)) (goesOn : value.truthy = true)
      (pass : body middle reported passed)
      (stepped : passed.eval increment = (.ok step, next))
      (more : Passes condition increment body next others after fault) :
      Passes condition increment body before (reported ++ others) after fault

/-- A whole loop: the faults that its body reports, and the fault that ends it. -/
inductive Runs (init condition increment : Clause)
    (body : Stage → List EvalFault → Stage → Prop) :
    Stage → List EvalFault → Stage → Option EvalFault → Prop
  | initFails {before after : Stage} {fault : EvalFault}
      (started : before.eval init = (.error fault, after)) :
      Runs init condition increment body before [] after (some fault)
  | passes {before middle after : Stage} {value : Value} {reported : List EvalFault}
      {fault : Option EvalFault} (started : before.eval init = (.ok value, middle))
      (passes : Passes condition increment body middle reported after fault) :
      Runs init condition increment body before reported after fault

end Loop

namespace Command

mutual

/-- One command: what its body reports, and the fault with which it fails. A command
without a body reports nothing by itself. -/
def Runs (defaults : ObjectDefaults) :
    Command → Stage → List EvalFault → Stage → Option EvalFault → Prop
  | .loop init condition increment body, before, reported, after, fault =>
    Loop.Runs init condition increment (RunsAll defaults body) before reported after fault
  | command, before, reported, after, fault =>
    reported = [] ∧ command.run defaults 0 (before.world #[]) = some (after.world #[], fault)

/-- Commands in order: what each reports is followed by the fault with which it fails. -/
def RunsAll (defaults : ObjectDefaults) : List Command → Stage → List EvalFault → Stage → Prop
  | [], before, reported, after => reported = [] ∧ after = before
  | command :: rest, before, reported, after =>
    ∃ first middle fault others, command.Runs defaults before first middle fault ∧
      RunsAll defaults rest middle others after ∧ reported = first ++ fault.toList ++ others

end

end Command

/-! ## Worlds with a log -/

/-- The world of a stage after faults have been reported behind the diagnostics. -/
def Stage.logged (stage : Stage) (diagnostics : Array Fault) (reported : List EvalFault) : World :=
  stage.world (diagnostics ++ (reported.map Fault.eval).toArray)

section
variable (stage : Stage) (diagnostics : Array Fault)

theorem Stage.logged_nil : stage.logged diagnostics [] = stage.world diagnostics := by
  rw [logged, List.map_nil, Array.append_empty]

theorem Stage.logged_append (reported others : List EvalFault) :
    stage.logged diagnostics (reported ++ others) =
      stage.logged (diagnostics ++ (reported.map Fault.eval).toArray) others := by
  simp only [logged, List.map_append, ← List.append_toArray, Array.append_assoc]

theorem Stage.report_logged (reported : List EvalFault) (fault : Option EvalFault) :
    (stage.logged diagnostics reported).report fault =
      stage.logged diagnostics (reported ++ fault.toList) := by
  cases fault with
  | none => rw [World.report, Option.toList_none, List.append_nil]
  | some fault =>
      simp only [World.report, logged, world, Option.toList_some, List.map_append,
        List.map_singleton, ← List.append_toArray, Array.append_singleton, Array.append_push]

theorem Stage.eval_world (clause : Clause) :
    (stage.world diagnostics).eval clause =
      ((stage.eval clause).1, (stage.eval clause).2.world diagnostics) := rfl

theorem Stage.behind_world : (stage.world #[]).behind diagnostics = stage.world diagnostics := by
  rw [World.behind, world, Array.append_empty, world]

end

/-! ## Commands without a body -/

theorem World.diagnostics_move (world : World) (name x y : String) :
    (world.move name x y).1.diagnostics = world.diagnostics := by
  rw [move]
  split
  · split
    · rfl
    · split <;> rfl
  · rfl

theorem World.diagnostics_assign (world : World) (target : String) (value : Clause) :
    (world.assign target value).1.diagnostics = world.diagnostics := by
  rw [assign, eval]
  rcases value.eval world.store with ⟨_ | ⟨_ | _⟩, store⟩ <;> rfl

namespace Command

section
variable {defaults : ObjectDefaults} {command : Command} (simple : command.isLoop = false)
include simple

theorem diagnostics_of_simple {bound : Nat} {world after : World} {fault : Option EvalFault}
    (ran : command.run defaults bound world = some (after, fault)) :
    after.diagnostics = world.diagnostics := by
  cases command with
  | move name x y =>
      rw [run, Option.some.injEq] at ran
      rw [← World.diagnostics_move world name x y, ran]
  | assign target value =>
      rw [run, Option.some.injEq] at ran
      rw [← World.diagnostics_assign world target value, ran]
  | loop init condition increment body => cases simple
  | _ =>
      cases ran
      rfl

theorem runs_of_simple {before after : Stage} {reported : List EvalFault}
    {fault : Option EvalFault} :
    command.Runs defaults before reported after fault ↔ reported = [] ∧
      command.run defaults 0 (before.world #[]) = some (after.world #[], fault) := by
  cases command with
  | loop init condition increment body => cases simple
  | _ => simp only [Runs]

theorem run_of_simple (bound : Nat) (stage : Stage) (diagnostics : Array Fault) :
    command.run defaults bound (stage.world diagnostics) =
      (command.run defaults 0 (stage.world #[])).map (Finished.behind diagnostics) := by
  rw [← stage.behind_world diagnostics, run_behind]
  cases command with
  | loop init condition increment body => cases simple
  | _ => rfl

end

end Command

/-! ## Bounded runs do what the relation says -/

/-- How a bounded loop that finishes goes on from a test of its condition. -/
inductive Loop.Continues (condition increment : Clause) (pass : World → Option World)
    (bound : Nat) (world final : World) : Option EvalFault → Prop
  | conditionFails {fault : EvalFault} (tested : world.eval condition = (.error fault, final)) :
      Continues condition increment pass bound world final (some fault)
  | finished {value : Value} (tested : world.eval condition = (.ok value, final))
      (stops : ¬ value.truthy = true) :
      Continues condition increment pass bound world final none
  | incrementFails {middle passed : World} {value : Value} {fault : EvalFault}
      (tested : world.eval condition = (.ok value, middle)) (goesOn : value.truthy = true)
      (ran : pass middle = some passed) (stepped : passed.eval increment = (.error fault, final)) :
      Continues condition increment pass bound world final (some fault)
  | again {fewer : Nat} {middle passed next : World} {value step : Value}
      {fault : Option EvalFault} (smaller : bound = fewer + 1)
      (tested : world.eval condition = (.ok value, middle)) (goesOn : value.truthy = true)
      (ran : pass middle = some passed) (stepped : passed.eval increment = (.ok step, next))
      (more : repeatPasses condition increment pass fewer next = some (final, fault)) :
      Continues condition increment pass bound world final fault

theorem Loop.continues_of_repeatPasses {condition increment : Clause}
    {pass : World → Option World} {bound : Nat} {world final : World} {fault : Option EvalFault}
    (ran : repeatPasses condition increment pass bound world = some (final, fault)) :
    Continues condition increment pass bound world final fault := by
  unfold repeatPasses at ran
  split at ran
  · rename_i reason middle tested
    cases ran
    exact .conditionFails tested
  · rename_i value middle tested
    split at ran
    · rename_i goesOn
      split at ran
      · cases ran
      · rename_i fewer
        split at ran
        · cases ran
        · rename_i passed bodyRan
          split at ran
          · rename_i reason next stepped
            cases ran
            exact .incrementFails tested goesOn bodyRan stepped
          · rename_i step next stepped
            exact .again rfl tested goesOn bodyRan stepped ran
    · rename_i stops
      cases ran
      exact .finished tested stops

theorem Stage.exists_eval {stage : Stage} {diagnostics : Array Fault} {clause : Clause}
    {outcome : Except EvalFault Value} {world : World}
    (evaluated : (stage.world diagnostics).eval clause = (outcome, world)) :
    ∃ after, stage.eval clause = (outcome, after) ∧ world = after.world diagnostics := by
  rw [eval_world] at evaluated
  cases evaluated
  exact ⟨_, rfl, rfl⟩

/-- What a bounded pass gives out is what the relation says. -/
def Follows (pass : World → Option World) (body : Stage → List EvalFault → Stage → Prop) : Prop :=
  ∀ stage diagnostics world, pass (stage.world diagnostics) = some world →
    ∃ reported after, body stage reported after ∧ world = after.logged diagnostics reported

section
variable {pass : World → Option World} {body : Stage → List EvalFault → Stage → Prop}
  (follows : Follows pass body)
include follows

theorem Loop.passes_of_repeatPasses {condition increment : Clause} {bound : Nat} {stage : Stage}
    {diagnostics : Array Fault} {world : World} {fault : Option EvalFault}
    (ran : repeatPasses condition increment pass bound (stage.world diagnostics) =
      some (world, fault)) :
    ∃ reported after, Passes condition increment body stage reported after fault ∧
      world = after.logged diagnostics reported := by
  induction bound using Nat.strongRecOn generalizing stage diagnostics with
  | ind bound ih =>
      cases continues_of_repeatPasses ran with
      | conditionFails tested =>
          obtain ⟨after, fails, rfl⟩ := Stage.exists_eval tested
          exact ⟨[], after, .conditionFails fails, (after.logged_nil diagnostics).symm⟩
      | finished tested stops =>
          obtain ⟨after, holds, rfl⟩ := Stage.exists_eval tested
          exact ⟨[], after, .finished holds stops, (after.logged_nil diagnostics).symm⟩
      | incrementFails tested goesOn bodyRan stepped =>
          obtain ⟨middle, holds, rfl⟩ := Stage.exists_eval tested
          obtain ⟨reported, passed, runs, rfl⟩ := follows _ _ _ bodyRan
          obtain ⟨after, fails, rfl⟩ := Stage.exists_eval stepped
          exact ⟨reported, after, .incrementFails holds goesOn runs fails, rfl⟩
      | again smaller tested goesOn bodyRan stepped more =>
          obtain ⟨middle, holds, rfl⟩ := Stage.exists_eval tested
          obtain ⟨reported, passed, runs, rfl⟩ := follows _ _ _ bodyRan
          obtain ⟨next, steps, rfl⟩ := Stage.exists_eval stepped
          obtain ⟨others, after, passes, rfl⟩ := ih _ (by omega) more
          exact ⟨reported ++ others, after, .again holds goesOn runs steps passes,
            (after.logged_append diagnostics reported others).symm⟩

theorem Loop.runs_of_run {init condition increment : Clause} {bound : Nat} {stage : Stage}
    {diagnostics : Array Fault} {world : World} {fault : Option EvalFault}
    (ran : run bound init condition increment pass (stage.world diagnostics) =
      some (world, fault)) :
    ∃ reported after, Runs init condition increment body stage reported after fault ∧
      world = after.logged diagnostics reported := by
  unfold run at ran
  split at ran
  · rename_i reason middle started
    cases ran
    obtain ⟨after, fails, rfl⟩ := Stage.exists_eval started
    exact ⟨[], after, .initFails fails, (after.logged_nil diagnostics).symm⟩
  · rename_i value middle started
    obtain ⟨begun, starts, rfl⟩ := Stage.exists_eval started
    obtain ⟨reported, after, passes, rfl⟩ := passes_of_repeatPasses follows ran
    exact ⟨reported, after, .passes starts passes, rfl⟩

end

namespace Command

variable {defaults : ObjectDefaults} {bound : Nat}

private theorem follows_of_each {commands : List Command}
    (each : ∀ command ∈ commands, ∀ stage diagnostics world fault,
      command.run defaults bound (stage.world diagnostics) = some (world, fault) →
      ∃ reported after, command.Runs defaults stage reported after fault ∧
        world = after.logged diagnostics reported) :
    Follows (runAll defaults bound commands) (RunsAll defaults commands) := by
  induction commands with
  | nil =>
      intro stage diagnostics world ran
      rw [runAll, Option.some.injEq] at ran
      subst ran
      exact ⟨[], stage, by rw [RunsAll]; exact ⟨rfl, rfl⟩, (stage.logged_nil diagnostics).symm⟩
  | cons command rest ih =>
      intro stage diagnostics world ran
      rw [runAll] at ran
      split at ran
      · cases ran
      · rename_i between fault first
        obtain ⟨reported, middle, runs, rfl⟩ :=
          each command List.mem_cons_self stage diagnostics between fault first
        rw [Stage.report_logged, Stage.logged] at ran
        obtain ⟨others, after, runsRest, rfl⟩ :=
          ih (fun other member => each other (List.mem_cons_of_mem _ member)) _ _ _ ran
        refine ⟨reported ++ fault.toList ++ others, after, ?_,
          (after.logged_append diagnostics _ others).symm⟩
        rw [RunsAll]
        exact ⟨reported, middle, fault, others, runs, runsRest, rfl⟩

theorem runs_of_run (command : Command) (stage : Stage) (diagnostics : Array Fault) (world : World)
    (fault : Option EvalFault)
    (ran : command.run defaults bound (stage.world diagnostics) = some (world, fault)) :
    ∃ reported after, command.Runs defaults stage reported after fault ∧
      world = after.logged diagnostics reported := by
  induction command using Command.induct generalizing stage diagnostics world fault with
  | simple command isSimple =>
      rw [run_of_simple isSimple, Option.map_eq_some_iff] at ran
      obtain ⟨⟨after, other⟩, ran, same⟩ := ran
      have clean := diagnostics_of_simple isSimple ran
      obtain ⟨store, scene, log⟩ := after
      cases clean
      cases same
      refine ⟨[], ⟨store, scene⟩, (runs_of_simple isSimple).mpr ⟨rfl, ran⟩, ?_⟩
      rw [Stage.logged_nil]
      exact Stage.behind_world ⟨store, scene⟩ diagnostics
  | loop init condition increment body ih =>
      rw [run] at ran
      obtain ⟨reported, after, runs, rfl⟩ := Loop.runs_of_run (follows_of_each ih) ran
      exact ⟨reported, after, by rwa [Runs], rfl⟩

theorem runsAll_of_runAll (commands : List Command) :
    Follows (runAll defaults bound commands) (RunsAll defaults commands) :=
  follows_of_each fun command _ => command.runs_of_run

end Command

/-! ## A large bound reaches what the relation says -/

/-- What the relation says is what passes with a large bound give out. -/
def Reaches (pass : Nat → World → Option World) (body : Stage → List EvalFault → Stage → Prop) :
    Prop :=
  ∀ stage reported after, body stage reported after → ∃ least, ∀ bound, least ≤ bound →
    ∀ diagnostics, pass bound (stage.world diagnostics) = some (after.logged diagnostics reported)

section
variable {pass : Nat → World → Option World} {body : Stage → List EvalFault → Stage → Prop}
  (reaches : Reaches pass body)
include reaches

-- The bound of the passes goes down while the bound for the body stays, so there are two.
theorem Loop.repeatPasses_of_passes {condition increment : Clause} {stage after : Stage}
    {reported : List EvalFault} {fault : Option EvalFault}
    (passes : Passes condition increment body stage reported after fault) :
    ∃ least, ∀ bound count, least ≤ bound → least ≤ count → ∀ diagnostics,
      repeatPasses condition increment (pass bound) count (stage.world diagnostics) =
        some (after.logged diagnostics reported, fault) := by
  induction passes with
  | conditionFails tested =>
      refine ⟨0, fun bound count _ _ diagnostics => ?_⟩
      rw [repeatPasses, Stage.eval_world, tested, Stage.logged_nil]
  | finished tested stops =>
      refine ⟨0, fun bound count _ _ diagnostics => ?_⟩
      rw [repeatPasses, Stage.eval_world, tested, Stage.logged_nil]
      exact if_neg stops
  | incrementFails tested goesOn runs stepped =>
      obtain ⟨least, ran⟩ := reaches _ _ _ runs
      refine ⟨least + 1, fun bound count enough enoughPasses diagnostics => ?_⟩
      obtain ⟨fewer, rfl⟩ := Nat.exists_eq_add_of_lt enoughPasses
      have passed := ran bound (Nat.le_of_succ_le enough) diagnostics
      rw [repeatPasses, Stage.eval_world, tested]
      simp only [if_pos goesOn, passed]
      rw [Stage.logged, Stage.eval_world, stepped]
      rfl
  | again tested goesOn runs stepped _ ih =>
      obtain ⟨least, ran⟩ := reaches _ _ _ runs
      obtain ⟨leastMore, more⟩ := ih
      refine ⟨max least leastMore + 1, fun bound count enough enoughPasses diagnostics => ?_⟩
      obtain ⟨fewer, rfl⟩ := Nat.exists_eq_add_of_lt enoughPasses
      have passed := ran bound (by omega) diagnostics
      rw [repeatPasses, Stage.eval_world, tested]
      simp only [if_pos goesOn, passed]
      rw [Stage.logged, Stage.eval_world, stepped, Stage.logged_append]
      exact more bound _ (by omega) (by omega) _

theorem Loop.run_of_runs {init condition increment : Clause} {stage after : Stage}
    {reported : List EvalFault} {fault : Option EvalFault}
    (runs : Runs init condition increment body stage reported after fault) :
    ∃ least, ∀ bound, least ≤ bound → ∀ diagnostics,
      run bound init condition increment (pass bound) (stage.world diagnostics) =
        some (after.logged diagnostics reported, fault) := by
  cases runs with
  | initFails started =>
      refine ⟨0, fun bound _ diagnostics => ?_⟩
      rw [run, Stage.eval_world, started, Stage.logged_nil]
  | passes started passes =>
      obtain ⟨least, ran⟩ := repeatPasses_of_passes reaches passes
      refine ⟨least, fun bound enough diagnostics => ?_⟩
      rw [run, Stage.eval_world, started]
      exact ran bound bound enough enough diagnostics

end

namespace Command

variable {defaults : ObjectDefaults}

private theorem reaches_of_each {commands : List Command}
    (each : ∀ command ∈ commands, ∀ stage reported after fault,
      command.Runs defaults stage reported after fault → ∃ least, ∀ bound, least ≤ bound →
        ∀ diagnostics, command.run defaults bound (stage.world diagnostics) =
          some (after.logged diagnostics reported, fault)) :
    Reaches (fun bound => runAll defaults bound commands) (RunsAll defaults commands) := by
  induction commands with
  | nil =>
      intro stage reported after runs
      rw [RunsAll] at runs
      obtain ⟨rfl, rfl⟩ := runs
      refine ⟨0, fun bound _ diagnostics => ?_⟩
      simp only [runAll, Stage.logged_nil]
  | cons command rest ih =>
      intro stage reported after runs
      rw [RunsAll] at runs
      obtain ⟨first, middle, fault, others, runsFirst, runsRest, rfl⟩ := runs
      obtain ⟨least, ran⟩ := each command List.mem_cons_self _ _ _ _ runsFirst
      obtain ⟨leastRest, ranRest⟩ :=
        ih (fun other member => each other (List.mem_cons_of_mem _ member)) _ _ _ runsRest
      refine ⟨max least leastRest, fun bound enough diagnostics => ?_⟩
      simp only [runAll, ran bound (by omega) diagnostics, Stage.report_logged]
      rw [Stage.logged, Stage.logged_append]
      exact ranRest bound (by omega) _

theorem run_of_runs (command : Command) (stage : Stage) (reported : List EvalFault) (after : Stage)
    (fault : Option EvalFault) (runs : command.Runs defaults stage reported after fault) :
    ∃ least, ∀ bound, least ≤ bound → ∀ diagnostics,
      command.run defaults bound (stage.world diagnostics) =
        some (after.logged diagnostics reported, fault) := by
  induction command using Command.induct generalizing stage reported after fault with
  | simple command isSimple =>
      obtain ⟨rfl, ran⟩ := (runs_of_simple isSimple).mp runs
      refine ⟨0, fun bound _ diagnostics => ?_⟩
      rw [run_of_simple isSimple, ran, Option.map_some, Finished.behind, Stage.behind_world,
        Stage.logged_nil]
  | loop init condition increment body ih =>
      rw [Runs] at runs
      obtain ⟨least, ran⟩ := Loop.run_of_runs (reaches_of_each ih) runs
      refine ⟨least, fun bound enough diagnostics => ?_⟩
      rw [run]
      exact ran bound enough diagnostics

theorem runAll_of_runsAll (commands : List Command) :
    Reaches (fun bound => runAll defaults bound commands) (RunsAll defaults commands) :=
  reaches_of_each fun command _ => command.run_of_runs

/-- Commands finish, for some bound, exactly as the relation says. -/
theorem exists_runAll_iff {commands : List Command} {stage : Stage} {diagnostics : Array Fault}
    {world : World} :
    (∃ bound, runAll defaults bound commands (stage.world diagnostics) = some world) ↔
      ∃ reported after, RunsAll defaults commands stage reported after ∧
        world = after.logged diagnostics reported := by
  constructor
  · rintro ⟨bound, ran⟩
    exact runsAll_of_runAll commands stage diagnostics world ran
  · rintro ⟨reported, after, runs, rfl⟩
    obtain ⟨least, ran⟩ := runAll_of_runsAll commands stage reported after runs
    exact ⟨least, ran least (Nat.le_refl _) diagnostics⟩

/-- A run reports one list of faults and ends in one way. -/
theorem RunsAll.unique {commands : List Command} {stage first second : Stage}
    {reported others : List EvalFault} (runs : RunsAll defaults commands stage reported first)
    (runsToo : RunsAll defaults commands stage others second) :
    reported = others ∧ first = second := by
  obtain ⟨least, ran⟩ := runAll_of_runsAll commands stage reported first runs
  obtain ⟨leastToo, ranToo⟩ := runAll_of_runsAll commands stage others second runsToo
  have left := ran (max least leastToo) (Nat.le_max_left _ _) #[]
  have right := ranToo (max least leastToo) (Nat.le_max_right _ _) #[]
  have same : first.logged #[] reported = second.logged #[] others :=
    Option.some.inj (left.symm.trans right)
  obtain ⟨firstStore, firstScene⟩ := first
  obtain ⟨secondStore, secondScene⟩ := second
  simp only [Stage.logged, Stage.world, World.mk.injEq, Array.empty_append] at same
  obtain ⟨rfl, rfl, log⟩ := same
  exact ⟨(List.map_inj_right fun _ _ => Fault.eval.inj).mp (congrArg Array.toList log), rfl⟩

end Command

end SceneScript
