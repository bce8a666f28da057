import SceneScript.Proofs.Expr.Writes
import SceneScript.Proofs.Script.Run

/-!
# Commands that fail

A command that fails changes nothing, up to one thing: assignments inside its
expression that took effect before the fault stay in effect. Such an assignment goes
unnoticed only if the name had the value before.
-/

set_option autoImplicit false

namespace SceneScript

open SceneScript.Script

/-- The assignments in a clause that take effect. -/
def Clause.writes (clause : Clause) (store : Store) : List (String × Float) :=
  match clause.tree with
  | .ok expr => expr.writes store
  | .error _ => []

/-- The names that are assigned in a clause. -/
def Clause.targets (clause : Clause) : List String :=
  match clause.tree with
  | .ok expr => expr.targets
  | .error _ => []

theorem Clause.eval_store (clause : Clause) (store : Store) :
    (clause.eval store).2 = store.setAll (clause.writes store) := by
  rw [eval, writes]
  cases clause.tree with
  | error fault => rfl
  | ok expr => exact expr.eval_store store

theorem Clause.fst_mem_targets {clause : Clause} {store : Store} {write : String × Float}
    (member : write ∈ clause.writes store) : write.1 ∈ clause.targets := by
  rw [writes] at member
  rw [targets]
  cases read : clause.tree with
  | error fault =>
      rw [read] at member
      cases member
  | ok expr =>
      rw [read] at member
      exact Expr.fst_mem_targets member

namespace Command

/-- The assignments inside the expression of a command that take effect. The
assignment that the command itself makes is not one of them. -/
def innerWrites : Command → Store → List (String × Float)
  | .assign _ value, store => value.writes store
  | _, _ => []

/-- The names that are assigned inside the expression of a command. -/
def innerTargets : Command → List String
  | .assign _ value => value.targets
  | _ => []

theorem fst_mem_innerTargets {command : Command} {store : Store} {write : String × Float}
    (member : write ∈ command.innerWrites store) : write.1 ∈ command.innerTargets := by
  cases command with
  | assign target value => exact Clause.fst_mem_targets member
  | _ => cases member

end Command

theorem World.move_of_fault {world after : World} {name x y : String} {fault : EvalFault}
    (failed : world.move name x y = (after, some fault)) : after = world := by
  rw [move] at failed
  split at failed
  · split at failed
    · cases failed
      rfl
    · split at failed
      · cases failed
        rfl
      · cases failed
  · cases failed

theorem World.assign_of_fault {world after : World} {target : String} {value : Clause}
    {fault : EvalFault} (failed : world.assign target value = (after, some fault)) :
    after = { world with store := world.store.setAll (value.writes world.store) } := by
  have stored := value.eval_store world.store
  rw [assign, eval] at failed
  generalize value.eval world.store = evaluated at stored failed
  rcases evaluated with ⟨result, store⟩
  rw [← stored]
  cases result with
  | error fault =>
      cases failed
      rfl
  | ok result =>
      cases result with
      | number number => cases failed
      | bool truth =>
          cases failed
          rfl

theorem Command.run_of_fault {command : Command} (simple : command.isLoop = false)
    {defaults : ObjectDefaults} {bound : Nat} {world after : World} {fault : EvalFault}
    (failed : command.run defaults bound world = some (after, some fault)) :
    after = { world with store := world.store.setAll (command.innerWrites world.store) } := by
  cases command with
  | create shape name => cases failed
  | color name token => cases failed
  | move name x y =>
      rw [run, Option.some.injEq] at failed
      exact World.move_of_fault failed
  | collidable name value => cases failed
  | assign target value =>
      rw [run, Option.some.injEq] at failed
      exact World.assign_of_fault failed
  | loop init condition increment body => cases simple

/-- A command that fails, but for loops, keeps the scene and all variables that are
not assigned inside its expression. It keeps all variables exactly if the assignments
inside that took effect before the fault gave every name the value that it had. -/
theorem Command.fault_keeps_store_iff {command : Command} (simple : command.isLoop = false)
    {defaults : ObjectDefaults} {bound : Nat} {world after : World} {fault : EvalFault}
    (failed : command.run defaults bound world = some (after, some fault)) :
    after.scene = world.scene ∧ after.diagnostics = world.diagnostics ∧
      after.store = world.store.setAll (command.innerWrites world.store) ∧
      (∀ name ∉ command.innerTargets, after.store.get? name = world.store.get? name) ∧
      (after.store.toList = world.store.toList ↔
        ∀ name value, (command.innerWrites world.store).reverse.lookup name = some value →
          world.store.get? name = some value) := by
  rw [Command.run_of_fault simple failed]
  refine ⟨rfl, rfl, rfl, ?_, Store.toList_setAll_eq_iff _ _⟩
  intro name notTarget
  apply Store.get?_setAll_of_not_mem
  rintro write member rfl
  exact notTarget (Command.fst_mem_innerTargets member)

/-- The command of `x = (y = w) + z;`. -/
def Command.sumOfAssignment : Command :=
  .assign "x" ⟨"(y = w) + z", .ok (.binary .add 9 (.assign "y" (.var "w" 6)) (.var "z" 11))⟩

theorem Command.run_sumOfAssignment {store : Store} {value : Float}
    (bound : store.get? "w" = some value) (unbound : store.get? "z" = none) :
    sumOfAssignment.run {} 0 ⟨store, .empty, #[]⟩ =
      some (⟨store.set "y" value, .empty, #[]⟩, some (.unbound "z" 11)) := by
  have stillUnbound : (store.set "y" value).get? "z" = none := by
    rw [Store.get?_set, if_neg (by decide), unbound]
  simp only [sumOfAssignment, run, World.assign, World.eval, Clause.eval, Expr.eval, bound,
    Store.assign, stillUnbound]

/-- The statement fails for a name that is not bound, and `y` is bound afterwards. -/
theorem Command.assignment_survives_fault :
    sumOfAssignment.isLoop = false ∧
      ∃ world after fault, sumOfAssignment.run {} 0 world = some (after, some fault) ∧
        after.store.toList ≠ world.store.toList := by
  refine ⟨rfl, ?_⟩
  have unbound : ∀ name, Store.empty.get? name = none := by
    intro name
    simp [Store.get?, Store.empty]
  have boundW : (Store.empty.set "w" 0).get? "w" = some 0 := by
    rw [Store.get?_set, if_pos rfl]
  have unboundZ : (Store.empty.set "w" 0).get? "z" = none := by
    rw [Store.get?_set, if_neg (by decide), unbound]
  refine ⟨_, _, _, run_sumOfAssignment boundW unboundZ, fun same => ?_⟩
  have sameName := Store.toList_eq_iff.mp same "y"
  rw [Store.get?_set, if_pos rfl, Store.get?_set, if_neg (by decide), unbound] at sameName
  cases sameName

/-- The same statement where `y` had the value before. -/
theorem Command.fault_keeps_store_of_same_value :
    let world : World := ⟨(Store.empty.set "w" 0).set "y" 0, .empty, #[]⟩
    ∃ after, sumOfAssignment.run {} 0 world = some (after, some (.unbound "z" 11)) ∧
      after.store.toList = world.store.toList := by
  intro world
  have boundY : world.store.get? "y" = some 0 := by
    rw [Store.get?_set, if_pos rfl]
  have boundW : world.store.get? "w" = some 0 := by
    rw [Store.get?_set, if_neg (by decide), Store.get?_set, if_pos rfl]
  have unboundZ : world.store.get? "z" = none := by
    rw [Store.get?_set, if_neg (by decide), Store.get?_set, if_neg (by decide)]
    simp [Store.get?, Store.empty]
  have ran := run_sumOfAssignment boundW unboundZ
  have writes : sumOfAssignment.innerWrites world.store = [("y", 0)] := by
    simp only [sumOfAssignment, innerWrites, Clause.writes, Expr.writes, Expr.eval, boundW,
      Store.assign, List.nil_append, List.append_nil]
  refine ⟨_, ran, (Command.fault_keeps_store_iff rfl ran).2.2.2.2.mpr ?_⟩
  intro name value last
  rw [writes, List.reverse_singleton, List.lookup_cons, List.lookup_nil] at last
  split at last
  · rename_i same
    rw [eq_of_beq same, ← last]
    exact boundY
  · cases last

end SceneScript
