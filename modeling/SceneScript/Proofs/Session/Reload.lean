import Mathlib.Logic.Function.Iterate
import SceneScript.Proofs.Session.History

/-!
# Loading forgets everything but the clock

The settings of a session never change, and its clock moves with the frames alone, so that
both are known from the settings at the start and the count of frames. Loading a script
reads nothing else of a session. Hence two sessions whose histories have equally many frames
cannot be told apart once a script has been loaded.
-/

set_option autoImplicit false

namespace SceneScript.Session

/-! ## Settings and clock -/

theorem PerformsAll.config_eq {history : List Operation} {session final : Session}
    (performed : PerformsAll history session final) : final.config = session.config := by
  induction performed with
  | nil session => rfl
  | cons first _ ih => exact ih.trans first.effect.config

theorem PerformsAll.time_eq {history : List Operation} {session final : Session}
    (performed : PerformsAll history session final) :
    final.time =
      session.config.pulse.advance^[history.countP Operation.isTick] session.time := by
  induction performed with
  | nil session => rfl
  | cons first _ ih =>
      rw [ih, first.effect.config, first.effect.time, List.countP_cons]
      split
      · rw [Function.iterate_succ_apply]
      · rfl

/-! ## Runs have one result -/

theorem Executes.unique {commands : List Command} {session first second : Session}
    (firstExecuted : session.Executes commands first)
    (secondExecuted : session.Executes commands second) : first = second := by
  obtain ⟨firstBound, firstRan⟩ := firstExecuted
  obtain ⟨secondBound, secondRan⟩ := secondExecuted
  have left := execute_mono (Nat.le_max_left firstBound secondBound) firstRan
  have right := execute_mono (Nat.le_max_right firstBound secondBound) secondRan
  exact Option.some.inj (left.symm.trans right)

theorem Operation.Performs.unique {operation : Operation} {session first second : Session}
    (firstPerformed : operation.Performs session first)
    (secondPerformed : operation.Performs session second) : first = second := by
  cases operation with
  | load source => exact Loads.unique firstPerformed secondPerformed
  | execute commands => exact Executes.unique firstPerformed secondPerformed
  | _ => exact firstPerformed.trans secondPerformed.symm

theorem PerformsAll.unique {history : List Operation} {session first second : Session}
    (firstPerformed : PerformsAll history session first)
    (secondPerformed : PerformsAll history session second) : first = second := by
  induction firstPerformed with
  | nil session =>
      cases secondPerformed with
      | nil => rfl
  | cons performs _ ih =>
      cases secondPerformed with
      | cons performsToo others =>
          cases performs.unique performsToo
          exact ih others

/-! ## Loading -/

theorem load_eq_of_config_time {first second : Session} (sameConfig : first.config = second.config)
    (sameTime : first.time = second.time) (bound : Nat) (source : String) :
    first.load bound source = second.load bound source := by
  have sameStart : first.reset = second.reset := by
    simp only [reset, sameConfig, sameTime]
  simp only [load, sameStart]

theorem performsAll_load_iff {first second : Session} (sameConfig : first.config = second.config)
    (sameTime : first.time = second.time) {source : String} {further : List Operation}
    {final : Session} :
    PerformsAll (.load source :: further) first final ↔
      PerformsAll (.load source :: further) second final := by
  have loads (middle : Session) : first.Loads source middle ↔ second.Loads source middle := by
    simp only [Loads, load_eq_of_config_time sameConfig sameTime]
  constructor
  · intro performed
    cases performed with
    | cons loaded others => exact .cons ((loads _).mp loaded) others
  · intro performed
    cases performed with
    | cons loaded others => exact .cons ((loads _).mpr loaded) others

/-- Two sessions with the same settings and equally many frames in their histories, whatever
else has happened to them, are the same after a script has been loaded and the same
operations have been performed: one finishes exactly if the other does, with the same
variables, scene, selection, diagnostics and clock. -/
theorem load_forgets_history {config : Config} {firstHistory secondHistory : List Operation}
    (sameTicks : firstHistory.countP Operation.isTick = secondHistory.countP Operation.isTick)
    {first second : Session} (firstPast : PerformsAll firstHistory (new config) first)
    (secondPast : PerformsAll secondHistory (new config) second) (source : String)
    (further : List Operation) :
    (∀ final, PerformsAll (.load source :: further) first final ↔
      PerformsAll (.load source :: further) second final) ∧
    ∀ firstFinal secondFinal, PerformsAll (.load source :: further) first firstFinal →
      PerformsAll (.load source :: further) second secondFinal → firstFinal = secondFinal := by
  have sameConfig : first.config = second.config :=
    firstPast.config_eq.trans secondPast.config_eq.symm
  have sameTime : first.time = second.time := by
    rw [firstPast.time_eq, secondPast.time_eq, sameTicks]
  refine ⟨fun final => performsAll_load_iff sameConfig sameTime, ?_⟩
  intro firstFinal secondFinal firstRun secondRun
  exact firstRun.unique ((performsAll_load_iff sameConfig sameTime).mpr secondRun)

/-- One session has run a failing script, the other has an object that came from outside. -/
theorem load_forgets_history_of_failed_script :
    let firstHistory : List Operation := [.load "object.create(circle, a); x = y;", .tick {}]
    let secondHistory : List Operation :=
      [.tick { nudges := [.up] }, .edit (.insert "z" (.new .square {})), .select "z"]
    let reload : List Operation := [.load "x = 1; object.create(square, b);", .tick {}]
    ∃ first second final, PerformsAll firstHistory (new {}) first ∧
      PerformsAll secondHistory (new {}) second ∧ PerformsAll reload first final ∧
      PerformsAll reload second final := by
  intro firstHistory secondHistory reload
  let second : Session := Session.select "z" { (new {}).tick { nudges := [.up] } with
    scene := ((new {}).tick { nudges := [.up] }).scene.insert "z" (.new .square {}) }
  have secondPast : PerformsAll secondHistory (new {}) second :=
    .cons rfl (.cons rfl (.cons rfl (.nil second)))
  have firstFinishes : ((new {}).load 0 "object.create(circle, a); x = y;").isSome = true := by
    decide +kernel
  obtain ⟨loaded, firstRan⟩ := Option.isSome_iff_exists.mp firstFinishes
  have firstPast : PerformsAll firstHistory (new {}) (loaded.tick {}) :=
    .cons (show (Operation.load _).Performs _ loaded from ⟨0, firstRan⟩) (.cons rfl (.nil _))
  have secondFinishes : (second.load 0 "x = 1; object.create(square, b);").isSome = true := by
    decide +kernel
  obtain ⟨reloaded, secondRan⟩ := Option.isSome_iff_exists.mp secondFinishes
  have secondReload : PerformsAll reload second (reloaded.tick {}) :=
    .cons (show (Operation.load _).Performs _ reloaded from ⟨0, secondRan⟩) (.cons rfl (.nil _))
  obtain ⟨together, -⟩ := load_forgets_history (by decide) firstPast secondPast
    "x = 1; object.create(square, b);" [.tick {}]
  exact ⟨_, second, _, firstPast, secondPast, (together _).mpr secondReload, secondReload⟩

end SceneScript.Session
