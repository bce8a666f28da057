import SceneScript.CommandLine
import SceneScript.Proofs.Diagnostics
import SceneScript.Proofs.Script.Lines
import SceneScript.Proofs.Session.History

/-!
# Lines of a report

Whatever script has been loaded, and however many frames have passed, every text of a
session is on one line. So a report can be read back line by line: there is one line for
each count, each diagnostic, each object and each variable, and at most one of the objects
is marked.
-/

set_option autoImplicit false

namespace SceneScript

open SceneScript.Text SceneScript.Script

theorem Scene.length_toList (scene : Scene) : scene.toList.length = scene.size :=
  Array.length_toList

theorem Store.length_toList (store : Store) : store.toList.length = store.size :=
  Std.TreeMap.length_toList

theorem Object.IsOneLine.describe {object : Object} (oneLine : object.IsOneLine) :
    Text.IsOneLine object.describe := by
  unfold Object.describe
  simp only [isOneLine_append, isOneLine_write_spliced, isOneLine_fixed, Value.isOneLine_boolText,
    oneLine.shape, oneLine.color, and_true, true_and]
  decide +kernel

namespace Session

/-! ## Sessions on one line -/

structure IsOneLine (session : Session) : Prop where
  diagnostics : ∀ fault ∈ session.diagnostics.toList, Text.IsOneLine fault.text
  scene : session.scene.IsOneLine
  store : ∀ binding ∈ session.store.toList, Text.IsOneLine binding.1

theorem isOneLine_of_loads {session final : Session} {source : String}
    (ofDefault : Text.IsOneLine session.config.defaults.color)
    (loaded : session.Loads source final) : final.IsOneLine := by
  obtain ⟨ran, executed, rfl⟩ := exists_executes_of_loads loaded
  obtain ⟨reported, runs, log⟩ := diagnostics_of_executes executed
  obtain ⟨allowed, readFaults⟩ := Program.lines.accepts_ofText source.toList
  obtain ⟨ofScene, runFaults⟩ :=
    (Scene.lines ofDefault).ends_of_runsAll runs allowed Scene.IsOneLine.empty
  have named := Store.isWellNamed_of_runsAll runs Store.IsWellNamed.empty
  refine ⟨fun fault member => ?_, ofScene,
    fun binding member => (named.isName_of_mem_toList member).isOneLine⟩
  rw [Fault.isOneLine_text_iff]
  rw [log, List.mem_append, List.mem_map] at member
  obtain ofReading | ⟨reason, isReported, rfl⟩ := member
  · exact readFaults fault ofReading
  · exact runFaults reason isReported

namespace IsOneLine

variable {session : Session} (oneLine : session.IsOneLine)
include oneLine

theorem modifySelected {change : Object → Object}
    (keeps : ∀ object : Object, object.IsOneLine → (change object).IsOneLine) :
    (session.modifySelected change).IsOneLine := by
  unfold Session.modifySelected
  split
  · exact ⟨oneLine.diagnostics, oneLine.scene.modify keeps _, oneLine.store⟩
  · exact oneLine

theorem selectAt (x y : Float) : (session.selectAt x y).IsOneLine := by
  unfold Session.selectAt
  split
  · exact ⟨oneLine.diagnostics, oneLine.scene, oneLine.store⟩
  · exact oneLine

theorem foldl_nudge (directions : List Direction) :
    (directions.foldl nudge session).IsOneLine := by
  induction directions generalizing session with
  | nil => exact oneLine
  | cons direction rest ih =>
      exact ih (oneLine.modifySelected fun _ ofObject => ⟨ofObject.shape, ofObject.color⟩)

theorem tick (input : FrameInput) : (session.tick input).IsOneLine := by
  have applied : (session.apply input).IsOneLine := by
    unfold apply
    split
    · exact (oneLine.selectAt _ _).foldl_nudge input.nudges
    · exact oneLine.foldl_nudge input.nudges
  have pulsed : (session.apply input).pulse.IsOneLine := by
    refine modifySelected ?_ ?_
    · exact ⟨applied.diagnostics, applied.scene, applied.store⟩
    · exact fun _ ofObject => ⟨ofObject.shape, ofObject.color⟩
  exact ⟨pulsed.diagnostics, pulsed.scene.collide, pulsed.store⟩

theorem ticks (input : FrameInput) (count : Nat) : (session.ticks input count).IsOneLine := by
  induction count generalizing session with
  | zero => exact oneLine
  | succ count ih => exact ih (oneLine.tick input)

end IsOneLine

theorem isIndexed_ticks {session : Session} (indexed : session.scene.IsIndexed)
    (input : FrameInput) (count : Nat) : (session.ticks input count).scene.IsIndexed := by
  induction count generalizing session with
  | zero => exact indexed
  | succ count ih =>
      refine ih ?_
      rw [tick_eq]
      exact indexed.applyAll _

/-! ## Lines -/

theorem isOneLine_objectLine (session : Session) {entry : String × Object}
    (ofName : Text.IsOneLine entry.1) (ofObject : entry.2.IsOneLine) :
    Text.IsOneLine (session.objectLine entry) := by
  have ofMark : Text.IsOneLine (if session.selection = some entry.1 then "*" else " ") := by
    split <;> decide
  unfold objectLine
  simp only [isOneLine_append, ofMark, ofName, ofObject.describe, and_true, true_and]
  decide +kernel

theorem IsOneLine.reportLines {session : Session} (oneLine : session.IsOneLine) :
    ∀ line ∈ session.reportLines, Text.IsOneLine line := by
  unfold Session.reportLines diagnosticLines objectLines variableLines
  simp only [List.forall_mem_append, List.forall_mem_cons, List.forall_mem_map, isOneLine_append,
    isOneLine_repr, isOneLine_write_spliced, and_true]
  refine ⟨⟨⟨by decide +kernel, fun fault member => ?_⟩, by decide +kernel, fun entry member => ?_⟩,
    by decide +kernel, fun binding member => ?_⟩
  · exact ⟨by decide +kernel, oneLine.diagnostics fault member⟩
  · obtain ⟨ofName, ofObject⟩ := oneLine.scene entry member
    exact session.isOneLine_objectLine ofName ofObject
  · exact ⟨⟨by decide +kernel, oneLine.store binding member⟩, by decide +kernel⟩

/-- Whether a line begins with the mark of the selected object. -/
def isStarred (line : String) : Bool :=
  line.toList.head? = some '*'

theorem isStarred_objectLine (session : Session) (entry : String × Object) :
    isStarred (session.objectLine entry) = decide (session.selection = some entry.1) := by
  unfold isStarred objectLine
  split
  · rename_i selected
    simp [selected]
  · rename_i unselected
    simp [unselected]

theorem countP_isStarred_le_one {session : Session} (indexed : session.scene.IsIndexed) :
    (session.scene.toList.map session.objectLine).countP isStarred ≤ 1 := by
  have onNames : (session.scene.toList.map session.objectLine).countP isStarred =
      session.scene.names.countP fun name => session.selection = some name := by
    simp only [Scene.names, List.countP_map, Function.comp_def, isStarred_objectLine]
  rw [onNames]
  cases session.selection with
  | none => simp
  | some selected =>
      have counted : (session.scene.names.countP fun name => some selected = some name) =
          session.scene.names.count selected := by
        simp only [List.count, Option.some.injEq, eq_comm (a := selected), beq_eq_decide]
      rw [counted]
      exact List.nodup_iff_count_le_one.mp indexed.nodup selected

theorem length_reportLines (session : Session) : session.reportLines.length =
    3 + session.diagnostics.size + session.scene.size + session.store.size := by
  simp only [reportLines, diagnosticLines, objectLines, variableLines, List.length_append,
    List.length_cons, List.length_map, Array.length_toList, Scene.length_toList, Store.length_toList]
  omega

/-- A report of a script that finishes, after any count of frames: no text of the session
has a line feed, and the report is a line for the count of the diagnostics and one for each
of them, then the same for the objects and for the variables, each ended by a line feed and
none of them divided. At most one of the objects is marked. -/
theorem report_is_read_back_by_lines {config : Config} {source : String} {loaded : Session}
    (ofDefault : Text.IsOneLine config.defaults.color)
    (loads : (new config).Loads source loaded) (ticks : Nat) :
    (∃ bound, (CommandLine.finalSession bound config source ticks).isSome) ∧
    ∀ bound final, CommandLine.finalSession bound config source ticks = some final →
      final.IsOneLine ∧
      ∃ faults objects bindings : List String,
        (faults = final.diagnostics.toList.map (fun fault => "  " ++ fault.text) ∧
          faults.length = final.diagnostics.size) ∧
        (objects = final.scene.toList.map final.objectLine ∧
          objects.length = final.scene.size) ∧
        (bindings = final.store.toList.map (fun binding =>
            "  " ++ binding.1 ++ " = " ++ Decimal.spliced.write binding.2) ∧
          bindings.length = final.store.size) ∧
        final.report.toList.splitOn '\n' =
          (("diagnostics: " ++ Nat.repr faults.length) :: faults ++
            ("objects: " ++ Nat.repr objects.length) :: objects ++
            ("variables: " ++ Nat.repr bindings.length) :: bindings).map String.toList ++ [[]] ∧
        final.report.toList.count '\n' =
          3 + final.diagnostics.size + final.scene.size + final.store.size ∧
        objects.countP isStarred ≤ 1 := by
  constructor
  · obtain ⟨bound, isLoaded⟩ := loads
    exact ⟨bound, by rw [CommandLine.finalSession, isLoaded]; rfl⟩
  intro bound final finished
  unfold CommandLine.finalSession at finished
  split at finished
  · cases finished
  rename_i session isLoaded
  cases finished
  have performs : (Operation.load source).Performs (new config) session := ⟨bound, isLoaded⟩
  have ofFinal := (isOneLine_of_loads ofDefault performs).ticks {} ticks
  have indexed := isIndexed_ticks (performs.effect.isIndexed Scene.isIndexed_empty) {} ticks
  generalize session.ticks {} ticks = final at ofFinal indexed
  refine ⟨ofFinal, _, _, _, ⟨rfl, ?_⟩, ⟨rfl, ?_⟩, ⟨rfl, ?_⟩, ?_, ?_, countP_isStarred_le_one indexed⟩
  · rw [List.length_map, Array.length_toList]
  · rw [List.length_map, Scene.length_toList]
  · rw [List.length_map, Store.length_toList]
  · rw [report, splitOn_join_lines ofFinal.reportLines]
    simp only [reportLines, diagnosticLines, objectLines, variableLines, List.length_map,
      Array.length_toList, Scene.length_toList, Store.length_toList]
  · rw [report, count_join_lines ofFinal.reportLines, length_reportLines]

/-- A call over two lines, a statement that is no command, a clause that is none, and a
variable: two of these leave a diagnostic, and two frames later each has one line. -/
theorem report_is_read_back_by_lines_of_broken_script :
    let source := "object.create(square, // a box\n  box);\n?;\nx = 1 +;\ny = 2;"
    Text.IsOneLine ({} : Config).defaults.color ∧
    ∃ loaded, (new {}).Loads source loaded ∧
      ∃ final, CommandLine.finalSession 0 {} source 2 = some final ∧ final.IsOneLine ∧
        final.report.toList.count '\n' = 3 + 2 + final.scene.size + 1 := by
  intro source
  have sizes : ((new {}).load 0 source).map
      (fun loaded => (loaded.diagnostics.size, loaded.store.size)) = some (2, 1) := by
    decide +kernel
  obtain ⟨loaded, isLoaded, sizes⟩ := Option.map_eq_some_iff.mp sizes
  obtain ⟨ofDiagnostics, ofStore⟩ := Prod.mk.inj sizes
  have black : Text.IsOneLine ({} : Config).defaults.color := by decide
  have finished : CommandLine.finalSession 0 {} source 2 = some (loaded.ticks {} 2) := by
    rw [CommandLine.finalSession, isLoaded]
  obtain ⟨-, every⟩ := report_is_read_back_by_lines black ⟨0, isLoaded⟩ 2
  obtain ⟨oneLine, -, -, -, -, -, -, -, count, -⟩ := every 0 _ finished
  refine ⟨black, loaded, ⟨0, isLoaded⟩, _, finished, oneLine, ?_⟩
  have keptDiagnostics : (loaded.ticks {} 2).diagnostics = loaded.diagnostics := by
    simp only [ticks, tick_eq]
  have keptStore : (loaded.ticks {} 2).store = loaded.store := by
    simp only [ticks, tick_eq]
  rw [count, keptDiagnostics, keptStore, ofDiagnostics, ofStore]

end Session

end SceneScript
