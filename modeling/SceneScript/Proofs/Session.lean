import SceneScript.Proofs.Script.Run
import SceneScript.Session

/-!
# Loading and executing

Both run commands from a store and a scene; the diagnostics of the run come behind
those that were there before. Whether a script finishes does not depend on a bound,
so `Loads` and `Executes` speak of some bound.
-/

set_option autoImplicit false

namespace SceneScript

def World.empty : World := ⟨.empty, .empty, #[]⟩

theorem World.behind_empty (front : Array Fault) (store : Store) (scene : Scene) :
    World.behind front ⟨store, scene, #[]⟩ = ⟨store, scene, front⟩ := by
  simp only [behind, Array.append_empty]

namespace Session

theorem load_eq (bound : Nat) (source : String) (session : Session) :
    session.load bound source =
      (Command.runAll session.config.defaults bound (Program.ofText source.toList).commands
        World.empty).map fun world =>
          { session with
            store := world.store
            scene := world.scene
            selection := world.scene.firstName?
            diagnostics := (Program.ofText source.toList).faults.toArray ++ world.diagnostics } := by
  have start : World.mk .empty .empty (Program.ofText source.toList).faults.toArray =
      World.empty.behind (Program.ofText source.toList).faults.toArray :=
    (World.behind_empty _ _ _).symm
  simp only [load, execute, world, reset, new, start, Command.runAll_behind]
  cases Command.runAll session.config.defaults bound (Program.ofText source.toList).commands
      World.empty with
  | none => rfl
  | some world => rfl

theorem execute_eq (bound : Nat) (commands : List Command) (session : Session) :
    session.execute bound commands =
      (Command.runAll session.config.defaults bound commands
        ⟨session.store, session.scene, #[]⟩).map fun world =>
          { session with
            store := world.store
            scene := world.scene
            diagnostics := session.diagnostics ++ world.diagnostics } := by
  have start : session.world =
      World.behind session.diagnostics ⟨session.store, session.scene, #[]⟩ :=
    (World.behind_empty _ _ _).symm
  simp only [execute, start, Command.runAll_behind]
  cases Command.runAll session.config.defaults bound commands
      ⟨session.store, session.scene, #[]⟩ with
  | none => rfl
  | some world => rfl

/-- Loading the script finishes with the given session. -/
def Loads (source : String) (session final : Session) : Prop :=
  ∃ bound, session.load bound source = some final

/-- Running the commands finishes with the given session. -/
def Executes (commands : List Command) (session final : Session) : Prop :=
  ∃ bound, session.execute bound commands = some final

theorem load_mono {bound larger : Nat} (order : bound ≤ larger) {source : String}
    {session final : Session} (loaded : session.load bound source = some final) :
    session.load larger source = some final := by
  rw [load_eq, Option.map_eq_some_iff] at loaded ⊢
  obtain ⟨world, ran, same⟩ := loaded
  exact ⟨world, Command.runAll_mono order ran, same⟩

theorem execute_mono {bound larger : Nat} (order : bound ≤ larger) {commands : List Command}
    {session final : Session} (executed : session.execute bound commands = some final) :
    session.execute larger commands = some final := by
  rw [execute_eq, Option.map_eq_some_iff] at executed ⊢
  obtain ⟨world, ran, same⟩ := executed
  exact ⟨world, Command.runAll_mono order ran, same⟩

theorem Loads.unique {source : String} {session first second : Session}
    (firstLoaded : session.Loads source first) (secondLoaded : session.Loads source second) :
    first = second := by
  obtain ⟨firstBound, firstLoaded⟩ := firstLoaded
  obtain ⟨secondBound, secondLoaded⟩ := secondLoaded
  have left := load_mono (Nat.le_max_left firstBound secondBound) firstLoaded
  have right := load_mono (Nat.le_max_right firstBound secondBound) secondLoaded
  exact Option.some.inj (left.symm.trans right)

end Session

end SceneScript
