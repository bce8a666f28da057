import SceneScript.Proofs.Script.Execution
import SceneScript.Proofs.Script.Failure

/-!
# How loops end

A loop that no clause ends by a fault has its condition false in the end. Where the
condition assigns nothing, testing it once more gives the same answer and changes
nothing. A clause that fails is reported once, behind what the passes of the body
reported before, and the next command runs.
-/

set_option autoImplicit false

namespace SceneScript

/-- False, zero, or not a number. -/
inductive Value.IsFalsy : Value → Prop where
  | bool : IsFalsy (.bool false)
  | zero {number : Float} (zero : (number == 0.0) = true) : IsFalsy (.number number)
  | notANumber {number : Float} (invalid : number.isNaN = true) : IsFalsy (.number number)

theorem Value.isFalsy_of_not_truthy {value : Value} (stops : ¬ value.truthy = true) :
    value.IsFalsy := by
  cases value with
  | bool value =>
      cases value with
      | false => exact .bool
      | true => exact absurd rfl stops
  | number number =>
      cases zero : number == 0.0 with
      | true => exact .zero zero
      | false =>
          cases invalid : number.isNaN with
          | true => exact .notANumber invalid
          | false => exact absurd (by simp only [truthy, bne, zero, invalid]; rfl) stops

theorem Clause.eval_store_of_pure {clause : Clause} (pure : clause.targets = []) (store : Store) :
    (clause.eval store).2 = store := by
  have none : clause.writes store = [] :=
    List.eq_nil_iff_forall_not_mem.mpr fun write member => by
      have target := fst_mem_targets member
      rw [pure] at target
      cases target
  rw [eval_store, none]
  rfl

theorem Stage.eval_of_pure {clause : Clause} (pure : clause.targets = []) (stage : Stage) :
    (stage.eval clause).2 = stage := by
  rw [eval, Clause.eval_store_of_pure pure]

namespace Loop

variable {init condition increment : Clause} {body : Stage → List EvalFault → Stage → Prop}
  {before after : Stage} {reported : List EvalFault} {fault : Option EvalFault}

theorem Passes.condition_falsy (pure : condition.targets = [])
    (passes : Passes condition increment body before reported after fault)
    (finished : fault = none) :
    ∃ value, after.eval condition = (.ok value, after) ∧ value.IsFalsy := by
  induction passes with
  | conditionFails tested => cases finished
  | @finished before after value tested stops =>
      have same := Stage.eval_of_pure pure before
      rw [tested] at same
      cases same
      exact ⟨value, tested, Value.isFalsy_of_not_truthy stops⟩
  | incrementFails tested goesOn pass stepped => cases finished
  | again tested goesOn pass stepped more ih => exact ih finished

theorem Runs.condition_falsy (pure : condition.targets = [])
    (runs : Runs init condition increment body before reported after none) :
    ∃ value, after.eval condition = (.ok value, after) ∧ value.IsFalsy := by
  cases runs with
  | passes started passes => exact passes.condition_falsy pure rfl

end Loop

namespace Command

/-- Of a loop whose condition can be read and assigns nothing: if no clause of it failed,
its condition is false in the world that it leaves. If a clause failed, the faults of
its passes are reported, then that of the clause, and the commands behind it run. -/
theorem loop_exit {init condition increment : Clause} {body : List Command} {tree : Expr}
    {defaults : ObjectDefaults} {bound : Nat} {world final : World} {fault : Option EvalFault}
    (parsed : condition.tree = .ok tree) (pure : tree.targets = [])
    (ran : (loop init condition increment body).run defaults bound world = some (final, fault)) :
    (fault = none →
      ∃ value, condition.eval final.store = (.ok value, final.store) ∧ value.IsFalsy) ∧
    ∀ reason, fault = some reason → ∃ reported,
      Loop.Runs init condition increment (RunsAll defaults body) ⟨world.store, world.scene⟩
        reported ⟨final.store, final.scene⟩ (some reason) ∧
      ∀ rest, runAll defaults bound (loop init condition increment body :: rest) world =
        runAll defaults bound rest ⟨final.store, final.scene,
          world.diagnostics ++ ((reported ++ [reason]).map Fault.eval).toArray⟩ := by
  have noTargets : condition.targets = [] := by
    rw [Clause.targets, parsed]
    exact pure
  obtain ⟨reported, after, runs, rfl⟩ := runs_of_run _ ⟨world.store, world.scene⟩ _ _ _ ran
  rw [Runs] at runs
  constructor
  · rintro rfl
    obtain ⟨value, tested, falsy⟩ := runs.condition_falsy noTargets
    rw [Stage.eval, Prod.mk.injEq] at tested
    exact ⟨value, Prod.ext tested.1 (Clause.eval_store_of_pure noTargets _), falsy⟩
  · rintro reason rfl
    refine ⟨reported, runs, fun rest => ?_⟩
    rw [runAll, ran]
    simp only [Stage.report_logged, Option.toList_some]
    rfl

/-- The loop `for (0; c; m) { x = y; }` with a condition for `c`. -/
def loopOverUnbound (condition : Clause) : Command :=
  .loop ⟨"0", .ok (.number 0)⟩ condition ⟨"m", .ok (.var "m" 1)⟩
    [.assign "x" ⟨"y", .ok (.var "y" 1)⟩]

theorem run_loopOverUnbound_one :
    (loopOverUnbound ⟨"1", .ok (.number 1)⟩).run {} 1 ⟨.empty, .empty, #[]⟩ =
      some (⟨.empty, .empty, #[.eval (.unbound "y" 1)]⟩, some (.unbound "m" 1)) := by
  have unbound : ∀ name, Store.empty.get? name = none := by
    intro name
    simp [Store.get?, Store.empty]
  have goesOn : (Value.number 1).truthy = true := by decide +kernel
  simp only [loopOverUnbound, run, Loop.run, Loop.repeatPasses, runAll, World.assign, World.eval,
    World.report, Clause.eval, Expr.eval, unbound, goesOn, if_true]
  rfl

theorem run_loopOverUnbound_zero :
    (loopOverUnbound ⟨"0", .ok (.number 0)⟩).run {} 0 ⟨.empty, .empty, #[]⟩ =
      some (⟨.empty, .empty, #[]⟩, none) := by
  have stops : (Value.number 0).truthy = false := by decide +kernel
  simp only [loopOverUnbound, run, Loop.run, Loop.repeatPasses, World.eval, Clause.eval, Expr.eval,
    stops, Bool.false_eq_true, if_false]

/-- With one as its condition the loop fails in its increment, after a pass whose fault is
reported in front. With zero it ends at once, and zero is false. -/
theorem loop_exit_of_loopOverUnbound :
    ((loopOverUnbound ⟨"1", .ok (.number 1)⟩).Runs {} ⟨.empty, .empty⟩ [.unbound "y" 1]
        ⟨.empty, .empty⟩ (some (.unbound "m" 1)) ∧
      ∀ rest, runAll {} 1 (loopOverUnbound ⟨"1", .ok (.number 1)⟩ :: rest) ⟨.empty, .empty, #[]⟩ =
        runAll {} 1 rest ⟨.empty, .empty,
          #[.eval (.unbound "y" 1), .eval (.unbound "m" 1)]⟩) ∧
    ∃ value, Clause.eval ⟨"0", .ok (.number 0)⟩ .empty = (.ok value, .empty) ∧
      value.IsFalsy := by
  constructor
  · obtain ⟨reported, runs, goesOn⟩ := (loop_exit rfl rfl run_loopOverUnbound_one).2 _ rfl
    -- What was reported can be read off the diagnostics of a script with this loop alone.
    have alone := goesOn []
    have ran := run_loopOverUnbound_one
    rw [loopOverUnbound] at ran
    simp only [runAll, ran, World.report, Option.some.injEq, World.mk.injEq, true_and] at alone
    have listed : reported.map Fault.eval ++ [.eval (.unbound "m" 1)] =
        [.eval (.unbound "y" 1)] ++ [.eval (.unbound "m" 1)] := by
      simpa using (congrArg Array.toList alone).symm
    obtain ⟨fault, rfl, same⟩ := List.map_eq_singleton_iff.mp (List.append_cancel_right listed)
    cases same
    exact ⟨by rwa [loopOverUnbound, Runs], goesOn⟩
  · exact (loop_exit rfl rfl run_loopOverUnbound_zero).1 rfl

end Command

end SceneScript
