import SceneScript.Config.Decode
import SceneScript.Demo
import SceneScript.Report

/-!
# Running without a window

A script is loaded, the given count of frames passes without input, and a report
is printed. The command line is checked before any file is looked at, and the
configuration before the script.
-/

set_option autoImplicit false

namespace SceneScript.CommandLine

/-- A file that the command line may name. -/
inductive File where
  /-- The command line names no file. -/
  | unnamed
  /-- The file cannot be read. -/
  | unreadable
  | text (content : String)

/-- What a run is given. -/
structure Request where
  script : File
  config : File
  /-- The count of frames, as it was written. -/
  ticks : String

/-- Why a run prints no report. -/
inductive Failure where
  | badTicks
  | unreadableConfig
  | badConfig
  | unreadableScript
deriving Repr, DecidableEq

/-- The exit code of a failure: a wrong command line differs from a wrong file. -/
def Failure.exitCode : Failure → Nat
  | .badTicks => 2
  | _ => 1

def maxTicks : Nat := 4294967295

/-- Reads a count of frames: digits with an optional sign in front. Behind a minus
sign only zero is a count. -/
def readTicks? (text : List Char) : Option Nat :=
  let (negative, digits) := Decimal.splitSign text
  if digits = [] ∨ ¬ digits.all Char.isDigit then none
  else
    let ticks := Decimal.ofDigits digits
    if ticks ≤ (if negative then 0 else maxTicks) then some ticks else none

def readConfig : File → Except Failure Config
  | .unnamed => .ok {}
  | .unreadable => .error .unreadableConfig
  | .text content =>
    match Config.ofText? content with
    | some config => .ok config
    | none => .error .badConfig

def readScript : File → Except Failure String
  | .unnamed => .ok demoScript
  | .unreadable => .error .unreadableScript
  | .text content => .ok content

/-- The session after a script has been loaded and frames without input have
passed. -/
def finalSession (bound : Nat) (config : Config) (source : String) (ticks : Nat) : Option Session :=
  match (Session.new config).load bound source with
  | none => none
  | some session => some (session.ticks {} ticks)

/-- Runs a script without a window. `none` if a loop needs more passes than the
bound allows. -/
def run (bound : Nat) (request : Request) : Option (Except Failure String) :=
  match readTicks? request.ticks.toList with
  | none => some (.error .badTicks)
  | some ticks =>
    match readConfig request.config with
    | .error failure => some (.error failure)
    | .ok config =>
      match readScript request.script with
      | .error failure => some (.error failure)
      | .ok source =>
        match finalSession bound config source ticks with
        | none => none
        | some session => some (.ok session.report)

end SceneScript.CommandLine
