import SceneScript.Script.Run

/-!
# Runs of commands

Three facts about every run. The diagnostics that stand at its start change neither
what it does nor what it reports. A run of commands behind each other is a run of the
first and then of the second. A bound that is large enough gives the same result as
any larger one, so that a run has at most one result.
-/

set_option autoImplicit false

namespace SceneScript

def Command.isLoop : Command → Bool
  | .loop _ _ _ _ => true
  | _ => false

/-- Induction over commands: what holds of the commands in a body may be used for the
loop. -/
theorem Command.induct {motive : Command → Prop}
    (simple : ∀ command, command.isLoop = false → motive command)
    (loop : ∀ init condition increment body, (∀ command ∈ body, motive command) →
      motive (.loop init condition increment body)) :
    ∀ command, motive command
  | .create shape name => simple _ rfl
  | .color name token => simple _ rfl
  | .move name x y => simple _ rfl
  | .collidable name value => simple _ rfl
  | .assign target value => simple _ rfl
  | .loop init condition increment body =>
      loop init condition increment body fun command _ => Command.induct simple loop command

/-! ## Diagnostics in front -/

/-- The same world with more diagnostics in front. -/
def World.behind (front : Array Fault) (world : World) : World :=
  { world with diagnostics := front ++ world.diagnostics }

abbrev Finished.behind (front : Array Fault) (finished : Finished) : Finished :=
  (finished.1.behind front, finished.2)

theorem World.eval_behind (front : Array Fault) (world : World) (clause : Clause) :
    (world.behind front).eval clause =
      ((world.eval clause).1, (world.eval clause).2.behind front) := rfl

theorem World.report_behind (front : Array Fault) (world : World) (fault : Option EvalFault) :
    (world.behind front).report fault = (world.report fault).behind front := by
  cases fault with
  | none => rfl
  | some fault => simp only [report, behind, Array.append_push]

theorem World.move_behind (front : Array Fault) (world : World) (name x y : String) :
    (world.behind front).move name x y = Finished.behind front (world.move name x y) := by
  have same : (world.behind front).scene.contains ((world.behind front).store.substitute name) =
      world.scene.contains (world.store.substitute name) := rfl
  rw [move, move, same]
  split
  · cases Script.readCoordinate x with
    | error fault => rfl
    | ok x =>
        cases Script.readCoordinate y with
        | error fault => rfl
        | ok y => rfl
  · rfl

theorem World.assign_behind (front : Array Fault) (world : World) (target : String)
    (value : Clause) :
    (world.behind front).assign target value =
      Finished.behind front (world.assign target value) := by
  rw [assign, assign, eval_behind]
  rcases world.eval value with ⟨result, after⟩
  cases result with
  | error fault => rfl
  | ok result =>
      simp only [behind, Finished.behind]
      split
      · rfl
      · rfl

theorem Loop.repeatPasses_behind {front : Array Fault} {pass : World → Option World}
    (body : ∀ world, pass (world.behind front) = (pass world).map (World.behind front))
    (condition increment : Clause) (bound : Nat) (world : World) :
    repeatPasses condition increment pass bound (world.behind front) =
      (repeatPasses condition increment pass bound world).map (Finished.behind front) := by
  induction bound generalizing world with
  | zero =>
      rw [repeatPasses, repeatPasses, World.eval_behind]
      rcases world.eval condition with ⟨result, tested⟩
      cases result with
      | error fault => rfl
      | ok value =>
          simp only
          split <;> rfl
  | succ bound ih =>
      rw [repeatPasses, repeatPasses, World.eval_behind]
      rcases world.eval condition with ⟨result, tested⟩
      cases result with
      | error fault => rfl
      | ok value =>
          simp only [body]
          split
          · cases pass tested with
            | none => rfl
            | some passed =>
                simp only [Option.map_some, World.eval_behind]
                rcases passed.eval increment with ⟨result, stepped⟩
                cases result with
                | error fault => rfl
                | ok value => exact ih stepped
          · rfl

theorem Loop.run_behind {front : Array Fault} {pass : World → Option World}
    (body : ∀ world, pass (world.behind front) = (pass world).map (World.behind front))
    (bound : Nat) (init condition increment : Clause) (world : World) :
    run bound init condition increment pass (world.behind front) =
      (run bound init condition increment pass world).map (Finished.behind front) := by
  rw [run, run, World.eval_behind]
  rcases world.eval init with ⟨result, started⟩
  cases result with
  | error fault => rfl
  | ok value => exact repeatPasses_behind body condition increment bound started

section
variable {defaults : ObjectDefaults} {bound : Nat} {front : Array Fault}

private theorem runAll_behind_of {commands : List Command}
    (each : ∀ command ∈ commands, ∀ world, command.run defaults bound (world.behind front) =
      (command.run defaults bound world).map (Finished.behind front)) (world : World) :
    Command.runAll defaults bound commands (world.behind front) =
      (Command.runAll defaults bound commands world).map (World.behind front) := by
  induction commands generalizing world with
  | nil => simp only [Command.runAll, Option.map_some]
  | cons command rest ih =>
      rw [Command.runAll, Command.runAll, each command List.mem_cons_self]
      cases command.run defaults bound world with
      | none => rfl
      | some finished =>
          simp only [Option.map_some, World.report_behind]
          exact ih (fun other member => each other (List.mem_cons_of_mem _ member)) _

theorem Command.run_behind (command : Command) (world : World) :
    command.run defaults bound (world.behind front) =
      (command.run defaults bound world).map (Finished.behind front) := by
  induction command using Command.induct generalizing world with
  | simple command isSimple =>
      cases command with
      | create shape name => rfl
      | color name color => rfl
      | move name x y =>
          simp only [Command.run, World.move_behind, Option.map_some]
      | collidable name value => rfl
      | assign target value =>
          simp only [Command.run, World.assign_behind, Option.map_some]
      | loop init condition increment body => cases isSimple
  | loop init condition increment body ih =>
      simp only [Command.run]
      exact Loop.run_behind (runAll_behind_of ih) bound init condition increment world

/-- What stands in the diagnostics at the start of a run stays there and changes
nothing else. -/
theorem Command.runAll_behind (commands : List Command) (world : World) :
    runAll defaults bound commands (world.behind front) =
      (runAll defaults bound commands world).map (World.behind front) :=
  runAll_behind_of (fun command _ => command.run_behind) world

end

/-! ## Commands behind each other -/

theorem Command.runAll_append (defaults : ObjectDefaults) (bound : Nat)
    (first second : List Command) (world : World) :
    runAll defaults bound (first ++ second) world =
      (runAll defaults bound first world).bind (runAll defaults bound second) := by
  induction first generalizing world with
  | nil => rw [List.nil_append, runAll, Option.bind_some]
  | cons command rest ih =>
      rw [List.cons_append, runAll, runAll]
      cases command.run defaults bound world with
      | none => rfl
      | some finished => exact ih _

/-! ## Larger bounds -/

theorem Loop.repeatPasses_mono {pass more : World → Option World}
    (body : ∀ world result, pass world = some result → more world = some result)
    {condition increment : Clause} {bound larger : Nat} (order : bound ≤ larger) {world : World}
    {finished : Finished}
    (result : repeatPasses condition increment pass bound world = some finished) :
    repeatPasses condition increment more larger world = some finished := by
  induction bound generalizing larger world with
  | zero =>
      rw [repeatPasses] at result ⊢
      generalize world.eval condition = outcome at result ⊢
      rcases outcome with ⟨value, tested⟩
      cases value with
      | error fault => exact result
      | ok value =>
          simp only at result ⊢
          split at result
          · cases result
          · rename_i stops
            rw [if_neg stops]
            exact result
  | succ bound ih =>
      obtain ⟨fewer, rfl⟩ : ∃ fewer, larger = fewer + 1 := ⟨larger - 1, by omega⟩
      rw [repeatPasses] at result ⊢
      generalize world.eval condition = outcome at result ⊢
      rcases outcome with ⟨value, tested⟩
      cases value with
      | error fault => exact result
      | ok value =>
          simp only at result ⊢
          split at result
          · rename_i goesOn
            rw [if_pos goesOn]
            cases passed : pass tested with
            | none =>
                rw [passed] at result
                cases result
            | some afterBody =>
                rw [passed] at result
                simp only [body tested afterBody passed] at result ⊢
                generalize afterBody.eval increment = outcome at result ⊢
                rcases outcome with ⟨value, stepped⟩
                cases value with
                | error fault => exact result
                | ok value => exact ih (Nat.le_of_succ_le_succ order) result
          · rename_i stops
            rw [if_neg stops]
            exact result

theorem Loop.run_mono {pass more : World → Option World}
    (body : ∀ world result, pass world = some result → more world = some result)
    {init condition increment : Clause} {bound larger : Nat} (order : bound ≤ larger)
    {world : World} {finished : Finished}
    (result : run bound init condition increment pass world = some finished) :
    run larger init condition increment more world = some finished := by
  rw [run] at result ⊢
  generalize world.eval init = outcome at result ⊢
  rcases outcome with ⟨value, started⟩
  cases value with
  | error fault => exact result
  | ok value => exact repeatPasses_mono body order result

section
variable {defaults : ObjectDefaults} {bound larger : Nat}

private theorem runAll_mono_of {commands : List Command}
    (each : ∀ command ∈ commands, ∀ world finished,
      command.run defaults bound world = some finished →
      command.run defaults larger world = some finished)
    (world result : World) (finished : Command.runAll defaults bound commands world = some result) :
    Command.runAll defaults larger commands world = some result := by
  induction commands generalizing world with
  | nil => exact finished
  | cons command rest ih =>
      rw [Command.runAll] at finished ⊢
      cases ran : command.run defaults bound world with
      | none =>
          rw [ran] at finished
          cases finished
      | some after =>
          rw [ran] at finished
          rw [each command List.mem_cons_self world after ran]
          exact ih (fun other member => each other (List.mem_cons_of_mem _ member)) _ finished

theorem Command.run_mono (order : bound ≤ larger) (command : Command) (world : World)
    (finished : Finished) (ran : command.run defaults bound world = some finished) :
    command.run defaults larger world = some finished := by
  induction command using Command.induct generalizing world finished with
  | simple command isSimple =>
      cases command with
      | loop init condition increment body => cases isSimple
      | _ => exact ran
  | loop init condition increment body ih =>
      simp only [Command.run] at ran ⊢
      exact Loop.run_mono (runAll_mono_of ih) order ran

theorem Command.runAll_mono (order : bound ≤ larger) {commands : List Command}
    {world result : World} (finished : runAll defaults bound commands world = some result) :
    runAll defaults larger commands world = some result :=
  runAll_mono_of (fun command _ => command.run_mono order) world result finished

end

end SceneScript
