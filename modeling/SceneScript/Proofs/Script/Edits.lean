import SceneScript.Proofs.Scene.Index
import SceneScript.Proofs.Script.Execution
import SceneScript.Proofs.Script.Failure

/-!
# What a run does to variables and to the scene

However long a run is, it does two things only: it binds variables, and it applies
operations to the scene. Each of these puts a new object in the scene for a command that
creates one, or changes an object without touching its shape, its opacity and its size. A
run never unbinds a variable, and never takes a name out of the scene.
-/

set_option autoImplicit false

namespace SceneScript

/-! ## Edits of a scene -/

/-- The command is one of these, or stands in the body of one of them. -/
inductive Command.Occurs (command : Command) : List Command → Prop
  | here {commands : List Command} (member : command ∈ commands) : Occurs command commands
  | inside {commands : List Command} {init condition increment : Clause} {body : List Command}
      (member : Command.loop init condition increment body ∈ commands)
      (deeper : Occurs command body) : Occurs command commands

theorem Command.Occurs.mono {command : Command} {commands more : List Command}
    (occurs : command.Occurs commands) (contained : commands ⊆ more) : command.Occurs more := by
  cases occurs with
  | here member => exact .here (contained member)
  | inside member deeper => exact .inside (contained member) deeper

def Object.SameForm (first second : Object) : Prop :=
  second.shape = first.shape ∧ second.opacity = first.opacity ∧ second.size = first.size

theorem Object.SameForm.refl (object : Object) : object.SameForm object :=
  ⟨rfl, rfl, rfl⟩

theorem Object.SameForm.trans {first second third : Object} (left : first.SameForm second)
    (right : second.SameForm third) : first.SameForm third :=
  ⟨right.1.trans left.1, right.2.1.trans left.2.1, right.2.2.trans left.2.2⟩

/-- What running the commands can do to a scene: an object is created as the defaults say,
or changed in its color, its place or its being collidable. -/
inductive Scene.Operation.IsEdit (defaults : ObjectDefaults) (commands : List Command) :
    Scene.Operation → Prop
  | create {shape : Shape} {text : String} (store : Store)
      (occurs : (Command.create shape text).Occurs commands) :
      IsEdit defaults commands (.insert (store.substitute text) (.new shape defaults))
  | change {change : Object → Object} (name : String)
      (keeps : ∀ object : Object, object.SameForm (change object)) :
      IsEdit defaults commands (.modify name change)

theorem Scene.applyAll_append (scene : Scene) (first second : List Scene.Operation) :
    scene.applyAll (first ++ second) = (scene.applyAll first).applyAll second :=
  List.foldl_append

/-- The second stage comes from the first by binding variables and by edits of the scene. -/
def Stage.Leads (defaults : ObjectDefaults) (commands : List Command)
    (before after : Stage) : Prop :=
  ∃ writes edits, (∀ edit ∈ edits, Scene.Operation.IsEdit defaults commands edit) ∧
    after = ⟨before.store.setAll writes, before.scene.applyAll edits⟩

namespace Stage.Leads

variable {defaults : ObjectDefaults} {commands : List Command}

theorem refl (stage : Stage) : stage.Leads defaults commands stage :=
  ⟨[], [], by simp, rfl⟩

theorem trans {before middle after : Stage} (first : before.Leads defaults commands middle)
    (second : middle.Leads defaults commands after) : before.Leads defaults commands after := by
  obtain ⟨writes, edits, allowed, rfl⟩ := first
  obtain ⟨moreWrites, moreEdits, moreAllowed, rfl⟩ := second
  refine ⟨writes ++ moreWrites, edits ++ moreEdits, ?_, ?_⟩
  · intro edit member
    obtain earlier | later := List.mem_append.mp member
    · exact allowed edit earlier
    · exact moreAllowed edit later
  · simp only [Store.setAll_append, Scene.applyAll_append]

theorem mono {more : List Command} {before after : Stage}
    (contained : ∀ command : Command, command.Occurs commands → command.Occurs more)
    (leads : before.Leads defaults commands after) : before.Leads defaults more after := by
  obtain ⟨writes, edits, allowed, reached⟩ := leads
  refine ⟨writes, edits, fun edit member => ?_, reached⟩
  cases allowed edit member with
  | create store occurs => exact .create store (contained _ occurs)
  | change name keeps => exact .change name keeps

theorem of_eval {stage after : Stage} {clause : Clause} {outcome : Except EvalFault Value}
    (evaluated : stage.eval clause = (outcome, after)) : stage.Leads defaults commands after := by
  cases evaluated
  refine ⟨clause.writes stage.store, [], by simp, ?_⟩
  rw [clause.eval_store]
  rfl

theorem of_edit {stage : Stage} {edit : Scene.Operation} (allowed : edit.IsEdit defaults commands) :
    stage.Leads defaults commands ⟨stage.store, edit.apply stage.scene⟩ := by
  refine ⟨[], [edit], fun other member => ?_, rfl⟩
  cases List.mem_singleton.mp member
  exact allowed

end Stage.Leads

/-! ## Runs are made of edits -/

theorem World.modifyObject_leads {defaults : ObjectDefaults} {commands : List Command}
    {before after : Stage} {name : String} {change : Object → Object}
    (changed : (before.world #[]).modifyObject name change = after.world #[])
    (keeps : ∀ object : Object, object.SameForm (change object)) :
    before.Leads defaults commands after := by
  obtain ⟨store, scene⟩ := after
  simp only [modifyObject, Stage.world, World.mk.injEq] at changed
  obtain ⟨rfl, rfl, -⟩ := changed
  exact .of_edit (.change (before.store.substitute name) keeps)

theorem World.move_leads {defaults : ObjectDefaults} {commands : List Command}
    {before after : Stage} {name x y : String} {fault : Option EvalFault}
    (moved : (before.world #[]).move name x y = (after.world #[], fault)) :
    before.Leads defaults commands after := by
  have unmoved (same : before.world #[] = after.world #[]) : before.Leads defaults commands after := by
    obtain ⟨store, scene⟩ := after
    cases same
    exact .refl before
  unfold move at moved
  split at moved
  · split at moved
    · exact unmoved (congrArg Prod.fst moved)
    · split at moved
      · exact unmoved (congrArg Prod.fst moved)
      · exact modifyObject_leads (congrArg Prod.fst moved) fun _ => ⟨rfl, rfl, rfl⟩
  · exact unmoved (congrArg Prod.fst moved)

theorem World.assign_leads {defaults : ObjectDefaults} {commands : List Command}
    {before after : Stage} {target : String} {value : Clause} {fault : Option EvalFault}
    (assigned : (before.world #[]).assign target value = (after.world #[], fault)) :
    before.Leads defaults commands after := by
  obtain ⟨store, scene⟩ := after
  unfold assign at assigned
  split at assigned
  · rename_i reason world evaluated
    obtain ⟨middle, fails, rfl⟩ := Stage.exists_eval evaluated
    cases assigned
    exact .of_eval fails
  · rename_i result world evaluated
    obtain ⟨middle, succeeds, rfl⟩ := Stage.exists_eval evaluated
    have leads : before.Leads defaults commands middle := .of_eval succeeds
    cases result with
    | number number =>
        cases assigned
        exact leads.trans ⟨[(target, number)], [], by simp, rfl⟩
    | bool truth =>
        cases assigned
        exact leads

theorem World.create_leads {defaults : ObjectDefaults} {commands : List Command}
    {before after : Stage} {shape : Shape} {name : String}
    (occurs : (Command.create shape name).Occurs commands)
    (created : (before.world #[]).create defaults shape name = after.world #[]) :
    before.Leads defaults commands after := by
  obtain ⟨store, scene⟩ := after
  simp only [create, Stage.world, World.mk.injEq] at created
  obtain ⟨rfl, rfl, -⟩ := created
  exact .of_edit (.create before.store occurs)

theorem Command.leads_of_simple {defaults : ObjectDefaults} {command : Command}
    (simple : command.isLoop = false) {before after : Stage} {fault : Option EvalFault}
    (ran : command.run defaults 0 (before.world #[]) = some (after.world #[], fault)) :
    before.Leads defaults [command] after := by
  cases command with
  | create shape name =>
      exact World.create_leads (.here List.mem_cons_self) (congrArg Prod.fst (Option.some.inj ran))
  | color name token =>
      exact World.modifyObject_leads (congrArg Prod.fst (Option.some.inj ran))
        fun _ => ⟨rfl, rfl, rfl⟩
  | move name x y => exact World.move_leads (Option.some.inj ran)
  | collidable name value =>
      exact World.modifyObject_leads (congrArg Prod.fst (Option.some.inj ran))
        fun _ => ⟨rfl, rfl, rfl⟩
  | assign target value => exact World.assign_leads (Option.some.inj ran)
  | loop init condition increment body => cases simple

section
variable {defaults : ObjectDefaults} {commands : List Command}
  {body : Stage → List EvalFault → Stage → Prop}
  (pass : ∀ before reported after, body before reported after →
    before.Leads defaults commands after)
include pass

theorem Loop.Passes.leads {condition increment : Clause} {before after : Stage}
    {reported : List EvalFault} {fault : Option EvalFault}
    (passes : Passes condition increment body before reported after fault) :
    before.Leads defaults commands after := by
  induction passes with
  | conditionFails tested => exact .of_eval tested
  | finished tested _ => exact .of_eval tested
  | incrementFails tested _ ran stepped =>
      exact (Stage.Leads.of_eval tested).trans ((pass _ _ _ ran).trans (.of_eval stepped))
  | again tested _ ran stepped _ ih =>
      exact (Stage.Leads.of_eval tested).trans
        ((pass _ _ _ ran).trans ((Stage.Leads.of_eval stepped).trans ih))

theorem Loop.Runs.leads {init condition increment : Clause} {before after : Stage}
    {reported : List EvalFault} {fault : Option EvalFault}
    (runs : Runs init condition increment body before reported after fault) :
    before.Leads defaults commands after := by
  cases runs with
  | initFails started => exact .of_eval started
  | passes started passes => exact (Stage.Leads.of_eval started).trans (passes.leads pass)

end

namespace Command

variable {defaults : ObjectDefaults}

private theorem leads_of_each {commands : List Command}
    (each : ∀ command ∈ commands, ∀ before reported after fault,
      command.Runs defaults before reported after fault → before.Leads defaults [command] after)
    (before : Stage) (reported : List EvalFault) (after : Stage)
    (runs : RunsAll defaults commands before reported after) :
    before.Leads defaults commands after := by
  induction commands generalizing before reported with
  | nil =>
      simp only [RunsAll] at runs
      obtain ⟨-, rfl⟩ := runs
      exact .refl after
  | cons command rest ih =>
      simp only [RunsAll] at runs
      obtain ⟨first, middle, fault, others, runsFirst, runsRest, -⟩ := runs
      have head := each command List.mem_cons_self before first middle fault runsFirst
      have tail := ih (fun other member => each other (List.mem_cons_of_mem _ member))
        middle others runsRest
      have headContained : [command] ⊆ command :: rest :=
        List.cons_subset_cons command (List.nil_subset rest)
      exact (head.mono fun _ occurs => occurs.mono headContained).trans
        (tail.mono fun _ occurs => occurs.mono (List.subset_cons_self command rest))

theorem Runs.leads (command : Command) (before : Stage) (reported : List EvalFault)
    (after : Stage) (fault : Option EvalFault)
    (runs : command.Runs defaults before reported after fault) :
    before.Leads defaults [command] after := by
  induction command using Command.induct generalizing before reported after fault with
  | simple command isSimple =>
      obtain ⟨-, ran⟩ := (runs_of_simple isSimple).mp runs
      exact leads_of_simple isSimple ran
  | loop init condition increment body ih =>
      simp only [Runs] at runs
      refine (runs.leads (leads_of_each ih)).mono fun command occurs => ?_
      exact .inside List.mem_cons_self occurs

/-- A run, loops of any length included, only binds variables and edits the scene. -/
theorem RunsAll.leads {commands : List Command} {before after : Stage}
    {reported : List EvalFault} (runs : RunsAll defaults commands before reported after) :
    before.Leads defaults commands after :=
  leads_of_each (fun command _ => Runs.leads command) before reported after runs

end Command

/-! ## What edits keep -/

namespace Scene

theorem IsIndexed.names_prefix_apply {scene : Scene} (indexed : scene.IsIndexed)
    {operation : Operation} (keeps : operation.isClear = false) :
    scene.names <+: (operation.apply scene).names := by
  rw [indexed.names_apply operation keeps]
  split
  · split
    · exact List.prefix_refl _
    · exact List.prefix_append _ _
  · exact List.prefix_refl _

theorem IsIndexed.names_prefix_applyAll {scene : Scene} (indexed : scene.IsIndexed)
    {operations : List Operation} (keep : ∀ operation ∈ operations, operation.isClear = false) :
    scene.names <+: (scene.applyAll operations).names := by
  induction operations generalizing scene with
  | nil => exact List.prefix_refl _
  | cons operation rest ih =>
      obtain ⟨first, others⟩ := List.forall_mem_cons.mp keep
      exact (indexed.names_prefix_apply first).trans (ih (indexed.apply operation) others)

theorem Operation.IsEdit.isClear {defaults : ObjectDefaults} {commands : List Command}
    {edit : Operation} (allowed : edit.IsEdit defaults commands) : edit.isClear = false := by
  cases allowed <;> rfl

/-- A relation that every one of the operations keeps between an object before and after it
holds over all of them. -/
theorem IsIndexed.exists_get?_applyAll {name : String} (related : Object → Object → Prop)
    (refl : ∀ object, related object object)
    (trans : ∀ first second third, related first second → related second third →
      related first third)
    {operations : List Operation}
    (step : ∀ operation ∈ operations, ∀ scene : Scene, scene.IsIndexed → ∀ object,
      scene.get? name = some object →
        ∃ after, (operation.apply scene).get? name = some after ∧ related object after)
    {scene : Scene} (indexed : scene.IsIndexed) {object : Object}
    (found : scene.get? name = some object) :
    ∃ after, (scene.applyAll operations).get? name = some after ∧ related object after := by
  induction operations generalizing scene object with
  | nil => exact ⟨object, found, refl object⟩
  | cons operation rest ih =>
      obtain ⟨first, others⟩ := List.forall_mem_cons.mp step
      obtain ⟨middle, foundMiddle, near⟩ := first scene indexed object found
      obtain ⟨after, foundAfter, far⟩ := ih others (indexed.apply operation) foundMiddle
      exact ⟨after, foundAfter, trans _ _ _ near far⟩

theorem IsIndexed.form_of_edit {defaults : ObjectDefaults} {commands : List Command}
    {edit : Operation} (allowed : edit.IsEdit defaults commands) {scene : Scene}
    (indexed : scene.IsIndexed) {name : String} {object : Object}
    (found : scene.get? name = some object) :
    ∃ after, (edit.apply scene).get? name = some after ∧
      (object.SameForm after ∨ ∃ shape, edit = .insert name (.new shape defaults) ∧
        (Object.new shape defaults).SameForm after) := by
  cases allowed with
  | @create shape text store _ =>
      have inserted := indexed.get?_insert (store.substitute text) name (.new shape defaults)
      split at inserted
      · rename_i same
        exact ⟨_, inserted, .inr ⟨shape, by rw [same], .refl _⟩⟩
      · exact ⟨object, inserted.trans found, .inl (.refl object)⟩
  | @change change other keeps =>
      have changed := indexed.get?_modify other name change
      rw [found] at changed
      split at changed
      · exact ⟨change object, changed, .inl (keeps object)⟩
      · exact ⟨object, changed, .inl (.refl object)⟩

/-- Edits leave the form of an object, unless one of them creates an object of its name.
From then on, the form is that of a new object. -/
theorem IsIndexed.form_of_edits {defaults : ObjectDefaults} {commands : List Command}
    {edits : List Operation} (allowed : ∀ edit ∈ edits, edit.IsEdit defaults commands)
    {scene : Scene} (indexed : scene.IsIndexed) {name : String} {object : Object}
    (found : scene.get? name = some object) :
    ∃ after, (scene.applyAll edits).get? name = some after ∧
      (object.SameForm after ∨ ∃ shape, .insert name (.new shape defaults) ∈ edits ∧
        (Object.new shape defaults).SameForm after) := by
  refine indexed.exists_get?_applyAll
    (fun object after => object.SameForm after ∨
      ∃ shape, .insert name (.new shape defaults) ∈ edits ∧
        (Object.new shape defaults).SameForm after)
    (fun object => .inl (.refl object)) ?_ ?_ found
  · intro first second third near far
    obtain same | created := far
    · obtain kept | ⟨shape, member, new⟩ := near
      · exact .inl (kept.trans same)
      · exact .inr ⟨shape, member, new.trans same⟩
    · exact .inr created
  · intro edit member scene indexed object found
    obtain ⟨after, foundAfter, form⟩ := indexed.form_of_edit (allowed edit member) found
    refine ⟨after, foundAfter, form.imp_right ?_⟩
    rintro ⟨shape, rfl, new⟩
    exact ⟨shape, member, new⟩

end Scene

end SceneScript
