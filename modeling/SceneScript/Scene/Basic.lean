import Std.Data.HashMap
import SceneScript.Scene.Object

/-!
# Scenes

A scene holds objects by name and lists them in the order in which their names
were first inserted. An object that is inserted again under its name takes the
place of the old one. The entries stand in an array; the index gives the position
of a name.
-/

set_option autoImplicit false

namespace SceneScript

/-- Objects by name, in the order of insertion. -/
structure Scene where
  entries : Array (String × Object)
  index : Std.HashMap String Nat

namespace Scene

def empty : Scene := ⟨#[], ∅⟩

def toList (scene : Scene) : List (String × Object) :=
  scene.entries.toList

def names (scene : Scene) : List String :=
  scene.toList.map Prod.fst

def size (scene : Scene) : Nat :=
  scene.entries.size

def firstName? (scene : Scene) : Option String :=
  scene.entries[0]?.map Prod.fst

/-- Whether there is an object of that name. -/
def contains (scene : Scene) (name : String) : Bool :=
  scene.index.contains name

def get? (scene : Scene) (name : String) : Option Object :=
  match scene.index[name]? with
  | some position => scene.entries[position]?.map Prod.snd
  | none => none

/-- Changes the object of that name, if there is one. -/
def modify (scene : Scene) (name : String) (change : Object → Object) : Scene :=
  match scene.index[name]? with
  | some position =>
    { scene with
      entries := scene.entries.modify position fun entry => (entry.1, change entry.2) }
  | none => scene

/-- Puts an object under a name: in the place of the object of that name, or behind
all others. -/
def insert (scene : Scene) (name : String) (object : Object) : Scene :=
  match scene.index[name]? with
  | some position =>
    { scene with
      entries := scene.entries.modify position fun entry => (entry.1, object) }
  | none =>
    { entries := scene.entries.push (name, object)
      index := scene.index.insert name scene.entries.size }

def ofList (entries : List (String × Object)) : Scene :=
  entries.foldl (fun scene entry => scene.insert entry.1 entry.2) empty

end Scene

end SceneScript
