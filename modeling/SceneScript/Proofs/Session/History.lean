import SceneScript.Proofs.Diagnostics
import SceneScript.Proofs.Script.Edits

/-!
# Histories of a session

A session is new, and then operations are performed on it, each of which finishes. What one
operation can do is said once, in `Operation.Effect`: it applies operations to the scene and
clears it only where a script is loaded or a scene is cleared from outside; it selects only
what is there; it moves the clock only with a frame. What holds after every history follows
from this by `PerformsAll.keeps`.
-/

set_option autoImplicit false

namespace SceneScript

theorem Scene.mem_names_of_hit? {scene : Scene} {x y : Float} {name : String}
    (hit : scene.hit? x y = some name) : name ∈ scene.names := by
  obtain ⟨entry, found, rfl⟩ := Option.map_eq_some_iff.mp hit
  exact List.mem_map.mpr ⟨entry, List.mem_of_find?_eq_some found, rfl⟩

namespace Session

/-- What can be done with a session. An edit reaches into its scene from outside. -/
inductive Operation where
  | load (source : String)
  | execute (commands : List Command)
  | tick (input : FrameInput)
  | collide
  | select (name : String)
  | selectAt (x y : Float)
  | nudge (direction : Direction)
  | edit (operation : Scene.Operation)

namespace Operation

def isLoad : Operation → Bool
  | .load _ => true
  | _ => false

def isClear : Operation → Bool
  | .edit operation => operation.isClear
  | _ => false

def isTick : Operation → Bool
  | .tick _ => true
  | _ => false

/-- The operation finishes and leaves the second session. -/
def Performs : Operation → Session → Session → Prop
  | .load source, session, final => session.Loads source final
  | .execute commands, session, final => session.Executes commands final
  | .tick input, session, final => final = session.tick input
  | .collide, session, final => final = session.collide
  | .select name, session, final => final = session.select name
  | .selectAt x y, session, final => final = session.selectAt x y
  | .nudge direction, session, final => final = session.nudge direction
  | .edit operation, session, final =>
    final = { session with scene := operation.apply session.scene }

end Operation

/-- The operations are performed one after another. -/
inductive PerformsAll : List Operation → Session → Session → Prop
  | nil (session : Session) : PerformsAll [] session session
  | cons {operation : Operation} {rest : List Operation} {session middle final : Session}
      (first : operation.Performs session middle) (others : PerformsAll rest middle final) :
      PerformsAll (operation :: rest) session final

/-- The session is what some history has made of a new one. -/
def IsReached (session : Session) : Prop :=
  ∃ config history, PerformsAll history (new config) session

theorem PerformsAll.keeps (holds : Session → Prop) {history : List Operation}
    (step : ∀ operation ∈ history, ∀ before after : Session, holds before →
      operation.Performs before after → holds after)
    {session final : Session} (performed : PerformsAll history session final)
    (start : holds session) : holds final := by
  induction performed with
  | nil session => exact start
  | cons first _ ih =>
      obtain ⟨stepFirst, stepOthers⟩ := List.forall_mem_cons.mp step
      exact ih stepOthers (stepFirst _ _ start first)

theorem PerformsAll.append {first second : List Operation} {session middle final : Session}
    (firstPerformed : PerformsAll first session middle)
    (secondPerformed : PerformsAll second middle final) :
    PerformsAll (first ++ second) session final := by
  induction firstPerformed with
  | nil session => exact secondPerformed
  | cons performs _ ih => exact .cons performs (ih secondPerformed)

/-! ## Frames as edits -/

/-- The edits that apply changes to the selected object. -/
def editsOf (selection : Option String) (changes : List (Object → Object)) :
    List Scene.Operation :=
  match selection with
  | some name => changes.map (Scene.Operation.modify name)
  | none => []

theorem editsOf_append (selection : Option String) (first second : List (Object → Object)) :
    editsOf selection (first ++ second) = editsOf selection first ++ editsOf selection second := by
  cases selection with
  | none => rfl
  | some name => exact List.map_append

theorem modifySelected_eq (change : Object → Object) (session : Session) :
    session.modifySelected change =
      { session with scene := session.scene.applyAll (editsOf session.selection [change]) } := by
  obtain ⟨config, store, scene, selection, diagnostics, time⟩ := session
  cases selection <;> rfl

theorem foldl_nudge (directions : List Direction) (session : Session) :
    directions.foldl nudge session =
      { session with
        scene := session.scene.applyAll (editsOf session.selection
          (directions.map fun direction => Object.nudge direction session.config.input.speed)) } := by
  induction directions generalizing session with
  | nil =>
      obtain ⟨config, store, scene, selection, diagnostics, time⟩ := session
      cases selection <;> rfl
  | cons direction rest ih =>
      have split := editsOf_append session.selection
        [Object.nudge direction session.config.input.speed]
        (rest.map fun direction => Object.nudge direction session.config.input.speed)
      rw [List.singleton_append] at split
      simp only [List.foldl_cons, List.map_cons, ih, nudge, modifySelected_eq, split,
        Scene.applyAll_append]

/-- The selection after the click of a frame. -/
def clicked (session : Session) (input : FrameInput) : Option String :=
  match input.click with
  | some (x, y) => (session.scene.hit? x y).or session.selection
  | none => session.selection

/-- What happens to the selected object in a frame: the nudges, and then the pulse. -/
def frameChanges (session : Session) (input : FrameInput) : List (Object → Object) :=
  input.nudges.map (fun direction => Object.nudge direction session.config.input.speed) ++
    [session.config.pulse.paint (session.config.pulse.advance session.time)]

theorem selectAt_eq (session : Session) (x y : Float) :
    session.selectAt x y =
      { session with selection := (session.scene.hit? x y).or session.selection } := by
  unfold selectAt
  cases session.scene.hit? x y <;> rfl

theorem apply_eq (session : Session) (input : FrameInput) :
    session.apply input =
      { session with
        selection := session.clicked input
        scene := session.scene.applyAll (editsOf (session.clicked input)
          (input.nudges.map fun direction =>
            Object.nudge direction session.config.input.speed)) } := by
  unfold apply clicked
  cases input.click with
  | none => exact foldl_nudge input.nudges session
  | some point => simp only [selectAt_eq, foldl_nudge]

theorem tick_eq (session : Session) (input : FrameInput) :
    session.tick input =
      { session with
        selection := session.clicked input
        scene := session.scene.applyAll
          (editsOf (session.clicked input) (session.frameChanges input) ++ [.collide])
        time := session.config.pulse.advance session.time } := by
  simp only [tick, apply_eq, pulse, modifySelected_eq, collide, frameChanges, editsOf_append,
    Scene.applyAll_append]
  rfl

/-! ## The effect of one operation -/

/-- What an operation can do. -/
structure Operation.Effect (operation : Operation) (before after : Session) : Prop where
  config : after.config = before.config
  time : after.time =
    if operation.isTick then before.config.pulse.advance before.time else before.time
  scene : ∃ edits, (operation.isClear = false → ∀ edit ∈ edits, edit.isClear = false) ∧
    after.scene = (if operation.isLoad then .empty else before.scene).applyAll edits
  selection : operation.isLoad = false → after.selection = before.selection ∨
    ∃ name, after.selection = some name ∧
      (before.scene.contains name = true ∨ name ∈ before.scene.names)
  diagnostics : operation.isLoad = false →
    before.diagnostics.toList <+: after.diagnostics.toList
  store : operation.isLoad = false → ∀ name, (before.store.get? name).isSome →
    (after.store.get? name).isSome

theorem Executes.exists_edits {session final : Session} {commands : List Command}
    (executed : session.Executes commands final) :
    ∃ reported writes edits,
      (∀ edit ∈ edits, Scene.Operation.IsEdit session.config.defaults commands edit) ∧
      final = { session with
        store := session.store.setAll writes
        scene := session.scene.applyAll edits
        diagnostics := session.diagnostics ++ reported } := by
  obtain ⟨reported, after, runs, rfl⟩ := executes_iff.mp executed
  obtain ⟨writes, edits, allowed, rfl⟩ := runs.leads
  exact ⟨_, writes, edits, allowed, rfl⟩

theorem exists_edits_of_loads {session final : Session} {source : String}
    (loaded : session.Loads source final) :
    final.config = session.config ∧ final.time = session.time ∧
      final.selection = final.scene.firstName? ∧
      ∃ edits, (∀ edit ∈ edits, edit.isClear = false) ∧
        final.scene = Scene.empty.applyAll edits := by
  obtain ⟨ran, executed, rfl⟩ := exists_executes_of_loads loaded
  obtain ⟨reported, writes, edits, allowed, rfl⟩ := executed.exists_edits
  exact ⟨rfl, rfl, rfl, edits, fun edit member => (allowed edit member).isClear, rfl⟩

theorem isClear_of_mem_editsOf {selection : Option String} {changes : List (Object → Object)}
    {edit : Scene.Operation} (member : edit ∈ editsOf selection changes) :
    edit.isClear = false := by
  cases selection with
  | none => cases member
  | some name =>
      obtain ⟨change, -, rfl⟩ := List.mem_map.mp member
      rfl

/-- Operations that neither load a script nor run commands change the selection, the scene
and the clock at most. -/
theorem Operation.Effect.of_edits {operation : Operation} {session : Session}
    {selection : Option String} {time : Float} (edits : List Scene.Operation)
    (noLoad : operation.isLoad = false)
    (clock : time =
      if operation.isTick then session.config.pulse.advance session.time else session.time)
    (keep : operation.isClear = false → ∀ edit ∈ edits, edit.isClear = false)
    (chosen : selection = session.selection ∨ ∃ name, selection = some name ∧
      (session.scene.contains name = true ∨ name ∈ session.scene.names)) :
    operation.Effect session
      { session with selection, scene := session.scene.applyAll edits, time } where
  config := rfl
  time := clock
  scene := ⟨edits, keep, by simp only [noLoad]; rfl⟩
  selection _ := chosen
  diagnostics _ := List.prefix_refl _
  store _ _ bound := bound

theorem hit?_or_selection (session : Session) (x y : Float) :
    (session.scene.hit? x y).or session.selection = session.selection ∨
      ∃ name, (session.scene.hit? x y).or session.selection = some name ∧
        (session.scene.contains name = true ∨ name ∈ session.scene.names) := by
  cases hit : session.scene.hit? x y with
  | none => exact .inl rfl
  | some name => exact .inr ⟨name, rfl, .inr (Scene.mem_names_of_hit? hit)⟩

theorem Operation.Performs.effect {operation : Operation} {session final : Session}
    (performed : operation.Performs session final) : operation.Effect session final := by
  cases operation with
  | load source =>
      obtain ⟨config, time, -, edits, keep, scene⟩ := exists_edits_of_loads performed
      refine ⟨config, time, ⟨edits, fun _ => keep, scene⟩, ?_, ?_, ?_⟩ <;> intro noLoad <;>
        cases noLoad
  | execute commands =>
      obtain ⟨reported, writes, edits, allowed, rfl⟩ := Executes.exists_edits performed
      refine ⟨rfl, rfl, ⟨edits, fun _ edit member => (allowed edit member).isClear, rfl⟩,
        fun _ => .inl rfl, fun _ => ?_, fun _ name bound => Store.isSome_get?_setAll bound writes⟩
      simp only [Array.toList_append]
      exact List.prefix_append _ _
  | tick input =>
      cases performed
      rw [tick_eq]
      refine .of_edits _ rfl rfl (fun _ edit member => ?_) ?_
      · obtain adjusts | collides := List.mem_append.mp member
        · exact isClear_of_mem_editsOf adjusts
        · cases List.mem_singleton.mp collides
          rfl
      · unfold clicked
        split
        · exact session.hit?_or_selection _ _
        · exact .inl rfl
  | collide =>
      cases performed
      refine .of_edits [.collide] rfl rfl ?_ (.inl rfl)
      simp [Scene.Operation.isClear]
  | select name =>
      cases performed
      unfold Session.select
      split
      · rename_i present
        exact .of_edits [] rfl rfl (by simp) (.inr ⟨name, rfl, .inl present⟩)
      · exact .of_edits [] rfl rfl (by simp) (.inl rfl)
  | selectAt x y =>
      cases performed
      rw [selectAt_eq]
      exact .of_edits [] rfl rfl (by simp) (session.hit?_or_selection x y)
  | nudge direction =>
      cases performed
      unfold Session.nudge
      rw [modifySelected_eq]
      exact .of_edits _ rfl rfl (fun _ _ => isClear_of_mem_editsOf) (.inl rfl)
  | edit operation =>
      cases performed
      refine .of_edits [operation] rfl rfl (fun keeps edit member => ?_) (.inl rfl)
      cases List.mem_singleton.mp member
      exact keeps

/-! ## Scenes of sessions -/

theorem Operation.Effect.isIndexed {operation : Operation} {before after : Session}
    (effect : operation.Effect before after) (indexed : before.scene.IsIndexed) :
    after.scene.IsIndexed := by
  obtain ⟨edits, -, reached⟩ := effect.scene
  rw [reached]
  split
  · exact Scene.isIndexed_empty.applyAll edits
  · exact indexed.applyAll edits

theorem PerformsAll.isIndexed {history : List Operation} {session final : Session}
    (performed : PerformsAll history session final) (indexed : session.scene.IsIndexed) :
    final.scene.IsIndexed := by
  refine performed.keeps (fun session => session.scene.IsIndexed) ?_ indexed
  exact fun operation _ before after indexed performs => performs.effect.isIndexed indexed

theorem isIndexed_of_performsAll {config : Config} {history : List Operation} {session : Session}
    (performed : PerformsAll history (new config) session) : session.scene.IsIndexed :=
  performed.isIndexed Scene.isIndexed_empty

theorem IsReached.isIndexed {session : Session} (reached : session.IsReached) :
    session.scene.IsIndexed := by
  obtain ⟨config, history, performed⟩ := reached
  exact isIndexed_of_performsAll performed

theorem Operation.Effect.names_prefix {operation : Operation} {before after : Session}
    (effect : operation.Effect before after) (indexed : before.scene.IsIndexed)
    (noLoad : operation.isLoad = false) (noClear : operation.isClear = false) :
    before.scene.names <+: after.scene.names := by
  obtain ⟨edits, keep, reached⟩ := effect.scene
  rw [reached, noLoad]
  exact indexed.names_prefix_applyAll (keep noClear)

end Session

end SceneScript
