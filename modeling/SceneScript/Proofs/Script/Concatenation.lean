import SceneScript.Proofs.Script.Block
import SceneScript.Proofs.Session

/-!
# Scripts behind each other

If a script is cut to its end, a second script on the lines behind it runs as if it
stood alone, from the state that the first one leaves. Only the order of the
diagnostics is different.
-/

set_option autoImplicit false

namespace SceneScript

open SceneScript.Script

theorem Session.toList_append_lineFeed (first second : String) :
    (first ++ "\n" ++ second).toList = first.toList ++ '\n' :: second.toList := by
  simp [String.toList_append]

theorem Session.load_append {first : String} (ends : CutsToEnd first.toList) (second : String)
    (bound : Nat) (session : Session) :
    (session.load bound (first ++ "\n" ++ second)).map (fun final => (final.store, final.scene)) =
      ((session.load bound first).bind
        (execute bound (Program.ofText second.toList).commands)).map
          fun final => (final.store, final.scene) := by
  have commands : (Program.ofText (first.toList ++ '\n' :: second.toList)).commands =
      (Program.ofText first.toList).commands ++ (Program.ofText second.toList).commands :=
    ends.commands_append _ _
  rw [load_eq, load_eq, toList_append_lineFeed, commands, Command.runAll_append]
  cases Command.runAll session.config.defaults bound (Program.ofText first.toList).commands
      World.empty with
  | none => rfl
  | some between =>
      -- The second script runs in the world between, whose diagnostics do not matter.
      have start : between =
          World.behind between.diagnostics ⟨between.store, between.scene, #[]⟩ :=
        (World.behind_empty _ _ _).symm
      simp only [Option.bind_some, Option.map_some, execute_eq]
      rw [start, Command.runAll_behind]
      simp only [World.behind]
      cases Command.runAll session.config.defaults bound (Program.ofText second.toList).commands
          ⟨between.store, between.scene, #[]⟩ with
      | none => rfl
      | some world => rfl

theorem Session.loads_append_iff {first second : String} (ends : CutsToEnd first.toList)
    (session : Session) (store : Store) (scene : Scene) :
    (∃ final, session.Loads (first ++ "\n" ++ second) final ∧
        (final.store, final.scene) = (store, scene)) ↔
      ∃ between final, session.Loads first between ∧
        between.Executes (Program.ofText second.toList).commands final ∧
        (final.store, final.scene) = (store, scene) := by
  constructor
  · rintro ⟨final, ⟨bound, loaded⟩, same⟩
    have joined := load_append ends second bound session
    rw [loaded, Option.map_some, same] at joined
    obtain ⟨after, ran, same⟩ := Option.map_eq_some_iff.mp joined.symm
    obtain ⟨between, loadedFirst, executed⟩ := Option.bind_eq_some_iff.mp ran
    exact ⟨between, after, ⟨bound, loadedFirst⟩, ⟨bound, executed⟩, same⟩
  · rintro ⟨between, after, ⟨loadBound, loaded⟩, ⟨executeBound, executed⟩, same⟩
    -- One bound serves both runs.
    have loaded := load_mono (Nat.le_max_left loadBound executeBound) loaded
    have executed := execute_mono (Nat.le_max_right loadBound executeBound) executed
    have joined := load_append ends second (max loadBound executeBound) session
    rw [loaded, Option.bind_some, executed, Option.map_some, same] at joined
    obtain ⟨final, loadedBoth, same⟩ := Option.map_eq_some_iff.mp joined
    exact ⟨final, ⟨_, loadedBoth⟩, same⟩

/-- A script behind one that is cut to its end is read and run as if it stood alone.
The commands come behind those of the first script. The fault that ended the cutting
of the second script comes first, its other faults come last. Loading both scripts
finishes exactly if loading the first and then executing the second finishes, with the
same variables and the same scene. -/
theorem Session.loads_concatenation {first : String} (ends : CutsToEnd first.toList)
    (second : String) :
    (Program.ofText (first ++ "\n" ++ second).toList).commands =
        (Program.ofText first.toList).commands ++ (Program.ofText second.toList).commands ∧
      (∃ remaining,
        (Program.ofText second.toList).faults =
          (cutFault? second.toList).toList ++ remaining ∧
        (Program.ofText (first ++ "\n" ++ second).toList).faults =
          (cutFault? second.toList).toList ++ (Program.ofText first.toList).faults ++
            remaining) ∧
      ∀ session : Session,
        ((∃ final, session.Loads (first ++ "\n" ++ second) final) ↔
          ∃ between after, session.Loads first between ∧
            between.Executes (Program.ofText second.toList).commands after) ∧
        ∀ final between after, session.Loads (first ++ "\n" ++ second) final →
          session.Loads first between →
          between.Executes (Program.ofText second.toList).commands after →
          final.store = after.store ∧ final.scene = after.scene := by
  have source := toList_append_lineFeed first second
  refine ⟨?_, ⟨statementFaults (bodyReader maxLoopNesting) second.toList, rfl, ?_⟩,
    fun session => ⟨⟨?_, ?_⟩, ?_⟩⟩
  · rw [source]
    exact ends.commands_append _ _
  · rw [source]
    exact ends.faults_append _ _
  · rintro ⟨final, loaded⟩
    obtain ⟨between, after, loadedFirst, executed, -⟩ :=
      (loads_append_iff ends session _ _).mp ⟨final, loaded, rfl⟩
    exact ⟨between, after, loadedFirst, executed⟩
  · rintro ⟨between, after, loadedFirst, executed⟩
    obtain ⟨final, loaded, -⟩ :=
      (loads_append_iff ends session _ _).mpr ⟨between, after, loadedFirst, executed, rfl⟩
    exact ⟨final, loaded⟩
  · intro final between after loaded loadedFirst executed
    obtain ⟨again, loadedAgain, same⟩ :=
      (loads_append_iff ends session _ _).mpr ⟨between, after, loadedFirst, executed, rfl⟩
    rw [loaded.unique loadedAgain]
    exact Prod.mk.inj same

/-- The first script ends in a comment. The second begins with a word that is longer
than the loop keyword, makes an object, and its loop is not complete. -/
theorem Session.loads_concatenation_of_open_loop :
    let first := "for(i = 0; i < 2; i = i + 1)\x7b\nx = i;\n\x7d // for\r"
    let second := "format = x; object.create(circle, a); for(j = 0;"
    CutsToEnd first.toList ∧ (cutFault? second.toList).isSome = true ∧
      (Program.ofText (first ++ "\n" ++ second).toList).commands =
        (Program.ofText first.toList).commands ++ (Program.ofText second.toList).commands ∧
      (∃ remaining,
        (Program.ofText second.toList).faults = (cutFault? second.toList).toList ++ remaining ∧
        (Program.ofText (first ++ "\n" ++ second).toList).faults =
          (cutFault? second.toList).toList ++ (Program.ofText first.toList).faults ++
            remaining) ∧
      ∃ final between after, (Session.new {}).Loads (first ++ "\n" ++ second) final ∧
        (Session.new {}).Loads first between ∧
        between.Executes (Program.ofText second.toList).commands after ∧
        final.store = after.store ∧ final.scene = after.scene ∧ after.store.size = 3 := by
  intro first second
  have ends : CutsToEnd first.toList := ⟨by decide +kernel, by decide +kernel⟩
  have halted : (cutFault? second.toList).isSome = true := by decide +kernel
  have loaded : ((Session.new {}).load 2 (first ++ "\n" ++ second)).map
      (fun final => final.store.size) = some 3 := by decide +kernel
  obtain ⟨final, isLoaded, size⟩ := Option.map_eq_some_iff.mp loaded
  obtain ⟨commands, faults, runs⟩ := Session.loads_concatenation ends second
  obtain ⟨finishes, same⟩ := runs (Session.new {})
  obtain ⟨between, after, loadsFirst, executes⟩ := finishes.mp ⟨final, 2, isLoaded⟩
  obtain ⟨store, scene⟩ := same final between after ⟨2, isLoaded⟩ loadsFirst executes
  rw [store] at size
  exact ⟨ends, halted, commands, faults, final, between, after, ⟨2, isLoaded⟩, loadsFirst,
    executes, store, scene, size⟩

end SceneScript
