import SceneScript.Proofs.Expr.Names
import SceneScript.Proofs.Script.Failure
import SceneScript.Proofs.Script.Invariant

/-!
# Names of variables

The names to which a script can assign are identifiers: the target of an assignment
statement, and every name in the tree of a clause. So in whatever way a script runs, each
of its variables has an identifier as its name.
-/

set_option autoImplicit false

namespace SceneScript

open SceneScript.Text SceneScript.Script

/-! ## Stores -/

def Store.IsWellNamed (store : Store) : Prop :=
  ∀ name, (store.get? name).isSome → IsName name.toList

namespace Store.IsWellNamed

theorem empty : Store.empty.IsWellNamed := by
  intro name bound
  rw [Store.get?, Store.empty, Std.TreeMap.getElem?_emptyc] at bound
  cases bound

variable {store : Store} (named : store.IsWellNamed)
include named

theorem set {target : String} (ofTarget : IsName target.toList) (value : Float) :
    (store.set target value).IsWellNamed := by
  intro name bound
  rw [Store.get?_set] at bound
  split at bound
  · rename_i same
    exact same ▸ ofTarget
  · exact named name bound

theorem setAll {writes : List (String × Float)}
    (ofWrites : ∀ write ∈ writes, IsName write.1.toList) : (store.setAll writes).IsWellNamed := by
  induction writes generalizing store with
  | nil => exact named
  | cons write rest ih =>
      obtain ⟨ofFirst, ofOthers⟩ := List.forall_mem_cons.mp ofWrites
      exact ih (named.set ofFirst write.2) ofOthers

theorem isName_of_mem_toList {binding : String × Float} (member : binding ∈ store.toList) :
    IsName binding.1.toList := by
  refine named binding.1 ?_
  rw [Store.get?, Std.TreeMap.mem_toList_iff_getElem?_eq_some.mp member]
  rfl

end Store.IsWellNamed

/-! ## Clauses -/

theorem Expr.IsWellNamed.isName_of_mem_targets {tree : Expr} (named : tree.IsWellNamed) :
    ∀ target ∈ tree.targets, IsName target.toList := by
  induction named with
  | number value => exact List.forall_mem_nil _
  | var column ofName => exact List.forall_mem_nil _
  | neg _ ih => exact ih
  | binary op column _ _ leftIH rightIH => exact List.forall_mem_append.mpr ⟨leftIH, rightIH⟩
  | assign ofTarget _ ih =>
      exact List.forall_mem_append.mpr ⟨ih, List.forall_mem_singleton.mpr ofTarget⟩

def Clause.IsWellNamed (clause : Clause) : Prop :=
  Expr.IsWellRead clause.tree

theorem Clause.ofText_isWellNamed (text : List Char) : (Clause.ofText text).IsWellNamed :=
  Expr.ofText_isWellNamed (trim text)

theorem Clause.IsWellNamed.isName_of_mem_targets {clause : Clause} (named : clause.IsWellNamed) :
    ∀ target ∈ clause.targets, IsName target.toList := by
  unfold IsWellNamed at named
  unfold targets
  split
  · rename_i tree read
    rw [read] at named
    exact Expr.IsWellNamed.isName_of_mem_targets named
  · exact List.forall_mem_nil _

theorem Store.IsWellNamed.eval {store : Store} (named : store.IsWellNamed) {clause : Clause}
    (ofClause : clause.IsWellNamed) : (clause.eval store).2.IsWellNamed := by
  rw [clause.eval_store]
  exact named.setAll fun write member =>
    ofClause.isName_of_mem_targets write.1 (Clause.fst_mem_targets member)

/-! ## Commands -/

inductive Command.IsWellNamed : Command → Prop
  | create (shape : Shape) (name : String) : IsWellNamed (.create shape name)
  | color (name color : String) : IsWellNamed (.color name color)
  | move (name x y : String) : IsWellNamed (.move name x y)
  | collidable (name value : String) : IsWellNamed (.collidable name value)
  | assign {target : String} {value : Clause} (ofTarget : IsName target.toList)
      (ofValue : value.IsWellNamed) : IsWellNamed (.assign target value)
  | loop {init condition increment : Clause} {body : List Command} (ofInit : init.IsWellNamed)
      (ofCondition : condition.IsWellNamed) (ofIncrement : increment.IsWellNamed)
      (ofBody : ∀ command ∈ body, IsWellNamed command) :
      IsWellNamed (.loop init condition increment body)

theorem Command.isWellNamed_of_callCommand? {method : Method} {arguments : List String}
    {command : Command} (known : callCommand? method arguments = some command) :
    command.IsWellNamed := by
  unfold callCommand? at known
  split at known
  · cases known
    exact .create _ _
  · cases known
    exact .color _ _
  · cases known
    exact .move _ _ _
  · cases known
    exact .collidable _ _
  · cases known

/-- Every program that is read has identifiers for its variables. -/
def Program.naming : ReadInvariant where
  allows := Command.IsWellNamed
  reports _ := True
  reports_cut _ := trivial
  reports_statement _ := trivial
  allows_call _ known := Command.isWellNamed_of_callCommand? known
  allows_assign ofTarget _ := .assign ofTarget (Clause.ofText_isWellNamed _)
  allows_loop _ _ _ ofBody := .loop (Clause.ofText_isWellNamed _) (Clause.ofText_isWellNamed _)
    (Clause.ofText_isWellNamed _) ofBody

/-! ## Runs -/

theorem World.store_move (world : World) (name x y : String) :
    (world.move name x y).1.store = world.store := by
  unfold move
  split
  · split
    · rfl
    · split <;> rfl
  · rfl

theorem World.isWellNamed_assign {world : World} (named : world.store.IsWellNamed)
    {target : String} {value : Clause} (ofTarget : IsName target.toList)
    (ofValue : value.IsWellNamed) : (world.assign target value).1.store.IsWellNamed := by
  have evaluated := named.eval ofValue
  unfold assign eval
  revert evaluated
  generalize value.eval world.store = outcome
  intro evaluated
  match outcome with
  | (.error _, _) => exact evaluated
  | (.ok (.bool _), _) => exact evaluated
  | (.ok (.number number), _) => exact evaluated.set ofTarget number

theorem Command.IsWellNamed.run_of_simple {defaults : ObjectDefaults} {command : Command}
    (ofCommand : command.IsWellNamed) (simple : command.isLoop = false) {before after : World}
    {bound : Nat} {fault : Option EvalFault} (named : before.store.IsWellNamed)
    (ran : command.run defaults bound before = some (after, fault)) :
    after.store.IsWellNamed := by
  cases ofCommand with
  | move name x y =>
      have kept := before.store_move name x y
      rw [Option.some.inj ran] at kept
      exact kept ▸ named
  | assign ofTarget ofValue =>
      have assigned := World.isWellNamed_assign named ofTarget ofValue
      rw [Option.some.inj ran] at assigned
      exact assigned
  | loop => cases simple
  | _ =>
      cases Option.some.inj ran
      exact named

/-- Every run of such commands binds identifiers only. -/
def Store.naming (defaults : ObjectDefaults) : RunInvariant defaults where
  holds stage := stage.store.IsWellNamed
  reports _ := True
  allowsClause := Clause.IsWellNamed
  allows := Command.IsWellNamed
  holds_eval ofClause named evaluated := by
    cases evaluated
    exact Store.IsWellNamed.eval named ofClause
  reports_eval _ _ := trivial
  holds_simple simple ofCommand named ran :=
    ⟨ofCommand.run_of_simple simple named ran, fun _ _ => trivial⟩
  allows_loop ofLoop := by
    cases ofLoop with
    | loop ofInit ofCondition ofIncrement ofBody =>
        exact ⟨ofInit, ofCondition, ofIncrement, ofBody⟩

theorem Store.isWellNamed_of_runsAll {defaults : ObjectDefaults} {source : List Char}
    {before after : Stage} {reported : List EvalFault}
    (runs : Command.RunsAll defaults (Program.ofText source).commands before reported after)
    (named : before.store.IsWellNamed) : after.store.IsWellNamed :=
  ((Store.naming defaults).ends_of_runsAll runs (Program.naming.accepts_ofText source).1 named).1

end SceneScript
