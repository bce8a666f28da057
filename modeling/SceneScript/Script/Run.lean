import SceneScript.Scene.Basic
import SceneScript.Script.Coordinate
import SceneScript.Script.Program

/-!
# Running commands

Commands run in order. One that fails is reported, and the next one runs. A clause
of a loop that fails ends that loop.

Scripts may loop forever, so running takes a bound: the count of passes that each
loop may make. The result is `none` if some loop would need more. A bound that is
large enough gives the same result as any larger one.
-/

set_option autoImplicit false

namespace SceneScript

open SceneScript.Script

/-- What commands read and change: the variables, the scene and the faults reported
so far. -/
structure World where
  store : Store
  scene : Scene
  diagnostics : Array Fault

namespace World

/-- Adds a fault, if there is one, to the diagnostics. -/
def report (world : World) : Option EvalFault → World
  | none => world
  | some fault => { world with diagnostics := world.diagnostics.push (.eval fault) }

def eval (world : World) (clause : Clause) : Except EvalFault Value × World :=
  let evaluated := clause.eval world.store
  (evaluated.1, { world with store := evaluated.2 })

/-- Changes the object of a name, after its variables have been replaced. -/
def modifyObject (world : World) (name : String) (change : Object → Object) : World :=
  { world with scene := world.scene.modify (world.store.substitute name) change }

/-- Puts a new object into the scene. -/
def create (world : World) (defaults : ObjectDefaults) (shape : Shape) (name : String) : World :=
  { world with
    scene := world.scene.insert (world.store.substitute name) (Object.new shape defaults) }

/-- Moves the object of a name, if there is one. The coordinates are read only
then, and both before the object moves. -/
def move (world : World) (name x y : String) : World × Option EvalFault :=
  if world.scene.contains (world.store.substitute name) then
    match readCoordinate x with
    | .error fault => (world, some fault)
    | .ok x =>
      match readCoordinate y with
      | .error fault => (world, some fault)
      | .ok y => (world.modifyObject name fun object => { object with x, y }, none)
  else (world, none)

/-- Stores the value of a clause under a name. -/
def assign (world : World) (target : String) (value : Clause) : World × Option EvalFault :=
  match world.eval value with
  | (.error fault, world) => (world, some fault)
  | (.ok value, world) =>
    match world.store.assign target value with
    | (.error fault, store) => ({ world with store }, some fault)
    | (.ok _, store) => ({ world with store }, none)

end World

/-- Whether a text says true, in any case. -/
def saysTrue (text : String) : Bool :=
  text.toList.map Char.toLower = ['t', 'r', 'u', 'e']

/-- A finished command: the world afterwards, and the fault that stopped it. -/
abbrev Finished := World × Option EvalFault

namespace Loop

/-- Makes passes over a loop, from a test of its condition on. `pass` runs the body. -/
def repeatPasses (condition increment : Clause) (pass : World → Option World) :
    Nat → World → Option Finished
  | bound, world =>
    match world.eval condition with
    | (.error fault, world) => some (world, some fault)
    | (.ok value, world) =>
      if value.truthy then
        match bound with
        | 0 => none
        | bound + 1 =>
          match pass world with
          | none => none
          | some world =>
            match world.eval increment with
            | (.error fault, world) => some (world, some fault)
            | (.ok _, world) => repeatPasses condition increment pass bound world
      else some (world, none)

def run (bound : Nat) (init condition increment : Clause) (pass : World → Option World)
    (world : World) : Option Finished :=
  match world.eval init with
  | (.error fault, world) => some (world, some fault)
  | (.ok _, world) => repeatPasses condition increment pass bound world

end Loop

mutual

def Command.run (defaults : ObjectDefaults) (bound : Nat) : Command → World → Option Finished
  | .create shape name, world => some (world.create defaults shape name, none)
  | .color name token, world =>
    some (world.modifyObject name fun object => { object with color := token }, none)
  | .move name x y, world => some (world.move name x y)
  | .collidable name value, world =>
    some (world.modifyObject name fun object => { object with collidable := saysTrue value }, none)
  | .assign target value, world => some (world.assign target value)
  | .loop init condition increment body, world =>
    Loop.run bound init condition increment (fun world => Command.runAll defaults bound body world)
      world

/-- Runs commands in order and reports those that fail. -/
def Command.runAll (defaults : ObjectDefaults) (bound : Nat) : List Command → World → Option World
  | [], world => some world
  | command :: rest, world =>
    match command.run defaults bound world with
    | none => none
    | some (world, fault) => Command.runAll defaults bound rest (world.report fault)

end

end SceneScript
