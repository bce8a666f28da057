import SceneScript.Proofs.Session.Reload
import SceneScript.CommandLine
import SceneScript.Window.Frame

/-!
# The window as a replay

A window adds nothing to its session: what frames do to the session is what a list of session
operations does, one tick for each frame, and a load and a selection where the button or a row
was clicked. A click on the canvas waits for the tick of the next frame, and for no other one,
although loading a script drops a click that is waiting: when a frame comes to the button, its
tick has used up the click before, and the canvas below has not yet been looked at.
-/

set_option autoImplicit false

namespace SceneScript

/-- The click of a tick; other operations have none. -/
def Session.Operation.tickClick? : Session.Operation → Option (Option (Float × Float))
  | .tick input => some input.click
  | _ => none

/-- The directions of the pressed keys in the order of the bindings, if the editor does not
have the keyboard. -/
def FrameEvents.directions (events : FrameEvents) : List Direction :=
  if events.editorFocused then []
  else keyBindings.filterMap fun binding =>
    if binding.1 ∈ events.keys then some binding.2 else none

theorem FrameEvents.nudges_eq (events : FrameEvents) : events.nudges = events.directions := by
  unfold nudges directions
  split
  · rfl
  · rw [← List.filterMap_eq_filter, ← List.filterMap_eq_map, List.filterMap_filterMap]
    congr 1
    funext binding
    by_cases pressed : binding.1 ∈ events.keys <;> simp [pressed]

/-- Nothing happens in the frame that could reach the session. -/
structure FrameEvents.IsIdle (events : FrameEvents) : Prop where
  noNudges : events.nudges = []
  noRun : events.runClicked = false
  noRow : events.rowClicked = none
  noCanvas : events.canvasClicked = none

/-- Whether a script finishes depends on the settings alone. -/
theorem Session.exists_loads_of_config {first second : Session}
    (same : first.config = second.config) {source : String}
    (finishes : ∃ loaded, first.Loads source loaded) : ∃ loaded, second.Loads source loaded := by
  obtain ⟨loaded, bound, isLoaded⟩ := finishes
  rw [load_eq, Option.map_eq_some_iff] at isLoaded
  obtain ⟨world, ran, -⟩ := isLoaded
  have isLoadedToo := load_eq bound source second
  rw [← same, ran, Option.map_some] at isLoadedToo
  exact ⟨_, bound, isLoadedToo⟩

namespace Window

/-- Opening a window with the script finishes. -/
def Opens (config : Config) (source : String) (window : Window) : Prop :=
  ∃ bound, open? bound config source = some window

/-- The frame finishes and leaves the second window. -/
def Passes (events : FrameEvents) (before after : Window) : Prop :=
  ∃ bound header, before.frame bound events = some (after, header)

/-- Frames pass one after another. The log has the events of each frame and the window that it
leaves. -/
inductive PassesAll : List (FrameEvents × Window) → Window → Window → Prop
  | nil (window : Window) : PassesAll [] window window
  | cons {events : FrameEvents} {rest : List (FrameEvents × Window)}
      {before after final : Window} (first : Passes events before after)
      (others : PassesAll rest after final) : PassesAll ((events, after) :: rest) before final

/-! ## What a frame registers -/

/-- The name in the clicked row. The table is there only if its tab is in front. -/
def rowClick? (after : Window) (events : FrameEvents) : Option String :=
  if after.tab = .scene then events.rowClicked.bind after.rowName? else none

/-- The click on the canvas. The canvas is there only if its tab is in front. -/
def canvasClick? (after : Window) (events : FrameEvents) : Option (Float × Float) :=
  if after.tab = .canvas then events.canvasClicked else none

def frameOperations (source : String) (click : Option (Float × Float)) (events : FrameEvents)
    (after : Window) : List Session.Operation :=
  .tick { click, nudges := events.directions } ::
    ((if events.runClicked then [.load source] else []) ++
      ((after.rowClick? events).map .select).toList)

/-- What the frames of a log do to the session, if the editor starts with the source and the
click was registered in the frame before. -/
def operations (source : String) (click : Option (Float × Float)) :
    List (FrameEvents × Window) → List Session.Operation
  | [] => []
  | (events, after) :: rest =>
    frameOperations (events.edited.getD source) click events after ++
      operations (events.edited.getD source) (after.canvasClick? events) rest

/-- Ticks and clicks on the canvas go together: each tick has the click of the frame before. -/
theorem tickClicks_operations (source : String) (click : Option (Float × Float))
    (log : List (FrameEvents × Window)) :
    (operations source click log).filterMap Session.Operation.tickClick? =
      (click :: log.map fun frame => frame.2.canvasClick? frame.1).dropLast := by
  induction log generalizing source click with
  | nil => rfl
  | cons frame rest ih =>
      obtain ⟨events, after⟩ := frame
      have noTick : ((if events.runClicked then [Session.Operation.load
          (events.edited.getD source)] else []) ++
            ((after.rowClick? events).map Session.Operation.select).toList).filterMap
              Session.Operation.tickClick? = [] := by
        cases events.runClicked <;> cases after.rowClick? events <;> rfl
      simp only [operations, frameOperations, List.filterMap_append, List.cons_append,
        List.filterMap_cons, Session.Operation.tickClick?, List.map_cons, List.dropLast_cons_cons, ih]
      rw [← List.filterMap_append, noTick, List.nil_append]

/-! ## One frame -/

section
variable {before after : Window} {events : FrameEvents}

/-- What a frame leaves when the tab in front has reacted to its clicks. -/
structure Registers (events : FrameEvents) (source : String) (loaded : Session)
    (after : Window) : Prop where
  source : after.source = source
  scene : after.session.scene = loaded.scene
  session : after.session = ((after.rowClick? events).map loaded.select).getD loaded
  click : after.pendingClick = after.canvasClick? events

theorem scene_select (session : Session) (name : String) :
    (session.select name).scene = session.scene := by
  unfold Session.select
  split <;> rfl

theorem clickContent_registers (events : FrameEvents) (source : String) (loaded : Session)
    (tab : Tab) :
    Registers events source loaded (clickContent events ⟨source, loaded, tab, none⟩) := by
  cases tab with
  | console => exact ⟨rfl, rfl, rfl, rfl⟩
  | store => exact ⟨rfl, rfl, rfl, rfl⟩
  | scene =>
      cases clicked : events.rowClicked.bind (rowName? ⟨source, loaded, .scene, none⟩) with
      | none =>
          simp only [clickContent, clicked]
          exact ⟨rfl, rfl, by simp [rowClick?, clicked], rfl⟩
      | some name =>
          have sameRows : rowName? ⟨source, loaded.select name, .scene, none⟩ =
              rowName? ⟨source, loaded, .scene, none⟩ := by
            funext row
            simp only [rowName?, scene_select]
          simp only [clickContent, clicked]
          exact ⟨rfl, scene_select loaded name, by simp [rowClick?, sameRows, clicked], rfl⟩
  | canvas =>
      cases clicked : events.canvasClicked with
      | none =>
          simp only [clickContent, clicked]
          exact ⟨rfl, rfl, rfl, by simp [canvasClick?, clicked]⟩
      | some point =>
          simp only [clickContent, clicked]
          exact ⟨rfl, rfl, rfl, by simp [canvasClick?, clicked]⟩

/-- The session after the tick of a frame. -/
def ticked (window : Window) (events : FrameEvents) : Session :=
  window.session.tick { click := window.pendingClick, nudges := events.directions }

/-- A frame ticks, loads the script if the button is clicked, and lets the tab in front
react. -/
theorem Passes.exists_loaded (passes : Passes events before after) :
    ∃ loaded, Session.PerformsAll
        (if events.runClicked then [.load (events.edited.getD before.source)] else [])
        (before.ticked events) loaded ∧
      Registers events (events.edited.getD before.source) loaded after := by
  obtain ⟨bound, header, framed⟩ := passes
  have start : (before.tick events).edit events.edited =
      ⟨events.edited.getD before.source, before.ticked events, before.tab, none⟩ := by
    simp only [tick, edit, ticked, FrameEvents.nudges_eq]
  simp only [frame, start] at framed
  cases run : events.runClicked with
  | false =>
      simp only [run, Bool.false_eq_true, if_false] at framed ⊢
      cases framed
      exact ⟨_, .nil _, clickContent_registers events _ _ _⟩
  | true =>
      simp only [run, if_true, reload] at framed ⊢
      split at framed
      · cases framed
      · rename_i reloaded isReloaded
        split at isReloaded
        · cases isReloaded
        · rename_i loaded isLoaded
          cases isReloaded
          cases framed
          refine ⟨loaded, .cons (show (Session.Operation.load _).Performs _ loaded from ?_) (.nil _),
            clickContent_registers events _ _ _⟩
          exact ⟨bound, isLoaded⟩

theorem Passes.performs (passes : Passes events before after) :
    Session.PerformsAll
        (frameOperations (events.edited.getD before.source) before.pendingClick events after)
        before.session after.session ∧
      after.source = events.edited.getD before.source ∧
      after.pendingClick = after.canvasClick? events := by
  obtain ⟨loaded, performed, registers⟩ := passes.exists_loaded
  refine ⟨.cons rfl (performed.append ?_), registers.source, registers.click⟩
  rw [registers.session]
  cases after.rowClick? events with
  | none => exact .nil loaded
  | some name => exact .cons rfl (.nil _)

/-- A clicked row is one of a scene that has its object, so that the selection succeeds. -/
theorem Passes.selects (passes : Passes events before after)
    (indexed : before.session.scene.IsIndexed) {name : String}
    (clicked : after.rowClick? events = some name) :
    after.session.scene.contains name = true ∧ after.session.selection = some name := by
  obtain ⟨loaded, performed, registers⟩ := passes.exists_loaded
  have ticks : Session.PerformsAll [.tick _] before.session (before.ticked events) :=
    .cons rfl (.nil _)
  have loadedIndexed := (ticks.append performed).isIndexed indexed
  have listed : name ∈ loaded.scene.names := by
    unfold rowClick? at clicked
    split at clicked
    · obtain ⟨row, -, found⟩ := Option.bind_eq_some_iff.mp clicked
      rw [rowName?, registers.scene] at found
      exact List.mem_of_getElem? found
    · cases clicked
  have present := (loadedIndexed.contains_iff name).mpr listed
  have session : after.session = loaded.select name := by
    rw [registers.session, clicked]
    rfl
  refine ⟨registers.scene ▸ present, ?_⟩
  rw [session, Session.select, if_pos present]

/-- Only a script that does not finish keeps a frame from passing. -/
theorem exists_passes_iff {config : Config} (settings : before.session.config = config) :
    (∃ after, Passes events before after) ↔
      (events.runClicked = true → ∃ loaded,
        (Session.new config).Loads (events.edited.getD before.source) loaded) := by
  have settled : (before.ticked events).config = (Session.new config).config := by
    rw [ticked, Session.tick_eq]
    exact settings
  constructor
  · intro passing run
    obtain ⟨after, passes⟩ := passing
    obtain ⟨loaded, performed, -⟩ := passes.exists_loaded
    rw [if_pos run] at performed
    cases performed with
    | cons loads _ => exact Session.exists_loads_of_config settled ⟨_, loads⟩
  · intro finishes
    have passed : ∃ bound, (before.frame bound events).isSome = true := by
      cases run : events.runClicked with
      | false => exact ⟨0, by simp [frame, run]⟩
      | true =>
          obtain ⟨loaded, bound, isLoaded⟩ :=
            Session.exists_loads_of_config settled.symm (finishes run)
          rw [ticked, ← FrameEvents.nudges_eq] at isLoaded
          exact ⟨bound, by simp [frame, run, reload, tick, edit, isLoaded]⟩
    obtain ⟨bound, isSome⟩ := passed
    obtain ⟨⟨after, header⟩, framed⟩ := Option.isSome_iff_exists.mp isSome
    exact ⟨after, bound, header, framed⟩

theorem Passes.of_idle (passes : Passes events before after) (idle : events.IsIdle)
    (noClick : before.pendingClick = none) :
    after.session = before.session.tick {} ∧ after.pendingClick = none := by
  obtain ⟨loaded, performed, registers⟩ := passes.exists_loaded
  have noRow : after.rowClick? events = none := by
    simp [rowClick?, idle.noRow]
  have noCanvas : after.canvasClick? events = none := by
    simp [canvasClick?, idle.noCanvas]
  have isTicked : before.ticked events = before.session.tick {} := by
    rw [ticked, noClick, ← FrameEvents.nudges_eq, idle.noNudges]
  rw [idle.noRun] at performed
  cases performed
  refine ⟨?_, registers.click.trans noCanvas⟩
  rw [registers.session, noRow, isTicked]
  rfl

end

/-! ## Frames one after another -/

section
variable {log : List (FrameEvents × Window)} {before final : Window}

/-- The text of the editor after the frames. -/
def sourceAfter (source : String) (log : List (FrameEvents × Window)) : String :=
  log.foldl (fun text frame => frame.1.edited.getD text) source

theorem PassesAll.source_eq (passes : PassesAll log before final) :
    final.source = sourceAfter before.source log := by
  induction passes with
  | nil window => rfl
  | cons first _ ih =>
      obtain ⟨-, source, -⟩ := first.performs
      rw [ih, source]
      rfl

theorem PassesAll.performs (passes : PassesAll log before final) :
    Session.PerformsAll (operations before.source before.pendingClick log) before.session
      final.session := by
  induction passes with
  | nil window => exact .nil window.session
  | cons first _ ih =>
      obtain ⟨performed, source, click⟩ := first.performs
      rw [source, click] at ih
      exact performed.append ih

theorem PassesAll.selects (passes : PassesAll log before final)
    (indexed : before.session.scene.IsIndexed) :
    ∀ frame ∈ log, ∀ name, frame.2.rowClick? frame.1 = some name →
      frame.2.session.scene.contains name = true ∧ frame.2.session.selection = some name := by
  induction passes with
  | nil window => exact fun frame member => nomatch member
  | cons first _ ih =>
      refine List.forall_mem_cons.mpr ⟨fun name clicked => first.selects indexed clicked, ?_⟩
      exact ih (first.performs.1.isIndexed indexed)

theorem PassesAll.session_of_idle (passes : PassesAll log before final)
    (idle : ∀ frame ∈ log, frame.1.IsIdle) (noClick : before.pendingClick = none) :
    final.session = before.session.ticks {} log.length := by
  induction passes with
  | nil window => rfl
  | cons first _ ih =>
      obtain ⟨firstIdle, othersIdle⟩ := List.forall_mem_cons.mp idle
      obtain ⟨session, click⟩ := first.of_idle firstIdle noClick
      rw [ih othersIdle click, session]
      rfl

end

theorem opens_iff {config : Config} {source : String} {window : Window} :
    Opens config source window ↔ ∃ loaded, (Session.new config).Loads source loaded ∧
      window = ⟨source, loaded, .canvas, none⟩ := by
  constructor
  · intro opens
    obtain ⟨bound, opened⟩ := opens
    unfold open? at opened
    split at opened
    · cases opened
    · rename_i loaded isLoaded
      cases opened
      exact ⟨loaded, ⟨bound, isLoaded⟩, rfl⟩
  · intro loads
    obtain ⟨loaded, ⟨bound, isLoaded⟩, rfl⟩ := loads
    exact ⟨bound, by simp only [open?, isLoaded]⟩

/-- A window opens exactly if its script finishes. Its session after any frames is what the
replay of their log gives: a tick for each frame, with the click that the frame before has
registered on the canvas, then a load and a selection where they were asked for. Selecting a
clicked row succeeds. Each tick has the click of the frame before, so that each click but one
in the last frame reaches one tick. Frames without input do what a run without a window does.
A frame passes unless it loads a script that does not finish. -/
theorem session_is_replayed (config : Config) (source : String) :
    ((∃ opened, Opens config source opened) ↔
      ∃ loaded, (Session.new config).Loads source loaded) ∧
    ∀ opened log final, Opens config source opened → PassesAll log opened final →
      (∀ session, Session.PerformsAll (.load source :: operations source none log) (.new config)
        session ↔ session = final.session) ∧
      (∀ frame ∈ log, ∀ name, frame.2.rowClick? frame.1 = some name →
        frame.2.session.scene.contains name = true ∧ frame.2.session.selection = some name) ∧
      (operations source none log).filterMap Session.Operation.tickClick? =
        (none :: log.map fun frame => frame.2.canvasClick? frame.1).dropLast ∧
      ((∀ frame ∈ log, frame.1.IsIdle) → ∃ bound,
        CommandLine.finalSession bound config source log.length = some final.session) ∧
      ∀ events, (∃ after, Passes events final after) ↔
        (events.runClicked = true → ∃ loaded, (Session.new config).Loads
          (events.edited.getD (sourceAfter source log)) loaded) := by
  constructor
  · constructor
    · intro opens
      obtain ⟨opened, opens⟩ := opens
      obtain ⟨loaded, loads, -⟩ := opens_iff.mp opens
      exact ⟨loaded, loads⟩
    · intro finishes
      obtain ⟨loaded, loads⟩ := finishes
      exact ⟨_, opens_iff.mpr ⟨loaded, loads, rfl⟩⟩
  intro opened log final opens passes
  obtain ⟨loaded, loads, rfl⟩ := opens_iff.mp opens
  have start : Session.PerformsAll [.load source] (.new config) loaded := .cons loads (.nil loaded)
  have history := start.append passes.performs
  refine ⟨fun session => ⟨fun performed => performed.unique history, ?_⟩,
    passes.selects (start.isIndexed Scene.isIndexed_empty), tickClicks_operations source none log,
    fun idle => ?_, fun events => ?_⟩
  · intro same
    rw [same]
    exact history
  · obtain ⟨bound, isLoaded⟩ := loads
    refine ⟨bound, ?_⟩
    rw [CommandLine.finalSession, isLoaded, passes.session_of_idle idle rfl]
  · rw [← passes.source_eq]
    exact exists_passes_iff history.config_eq

/-- A click on the canvas reaches the tick of the next frame, which also loads another
script. -/
theorem session_is_replayed_of_click_before_load :
    let source := "object.create(square, a);"
    let other := "object.create(circle, b);"
    let frames : List FrameEvents :=
      [{ canvasClicked := some (60, 60) }, { edited := some other, runClicked := true },
        { keys := [.d, .w] }]
    ∃ opened log final, Opens {} source opened ∧ PassesAll log opened final ∧
      log.map Prod.fst = frames ∧
      Session.PerformsAll
        [.load source, .tick {}, .tick { click := some (60, 60) }, .load other,
          .tick { nudges := [.up, .right] }] (.new {}) final.session := by
  intro source other frames
  have finishes : ((Session.new {}).load 0 source).isSome = true := by decide +kernel
  have otherFinishes : ((Session.new {}).load 0 other).isSome = true := by decide +kernel
  obtain ⟨loaded, isLoaded⟩ := Option.isSome_iff_exists.mp finishes
  obtain ⟨otherLoaded, isOtherLoaded⟩ := Option.isSome_iff_exists.mp otherFinishes
  let opened : Window := ⟨source, loaded, .canvas, none⟩
  let first : Window := ⟨source, loaded.tick {}, .canvas, some (60, 60)⟩
  have opens : Opens {} source opened := opens_iff.mpr ⟨loaded, ⟨0, isLoaded⟩, rfl⟩
  have replays := (session_is_replayed {} source).2 opened
  have framed : (opened.frame 0 { canvasClicked := some (60, 60) }).map Prod.fst = some first := by
    rfl
  obtain ⟨⟨_, header⟩, isFramed, rfl⟩ := Option.map_eq_some_iff.mp framed
  have firstPasses : Passes { canvasClicked := some (60, 60) } opened first := ⟨0, header, isFramed⟩
  obtain ⟨second, secondPasses⟩ := ((replays _ _ opens (.cons firstPasses (.nil _))).2.2.2.2
    { edited := some other, runClicked := true }).mpr fun _ => ⟨otherLoaded, 0, isOtherLoaded⟩
  obtain ⟨third, thirdPasses⟩ := ((replays _ _ opens
    (.cons firstPasses (.cons secondPasses (.nil _)))).2.2.2.2 { keys := [.d, .w] }).mpr
      fun run => nomatch run
  have passes := PassesAll.cons firstPasses (.cons secondPasses (.cons thirdPasses (.nil _)))
  have performed := ((replays _ _ opens passes).1 third.session).mpr rfl
  refine ⟨opened, _, third, opens, passes, rfl, ?_⟩
  have noCanvas : second.canvasClick? { edited := some other, runClicked := true } = none := by
    simp [canvasClick?]
  have click : first.canvasClick? { canvasClicked := some (60, 60) } = some (60, 60) := by
    simp [canvasClick?, first]
  have noRow (window : Window) (events : FrameEvents) (none : events.rowClicked = none) :
      window.rowClick? events = .none := by
    simp [rowClick?, none]
  simp only [operations, frameOperations, click, noCanvas, noRow] at performed
  exact performed

end Window

end SceneScript
