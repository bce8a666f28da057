import SceneScript.CommandLine.Arguments

/-!
# The command line program

Reads the files that the command line names, runs the script and prints the report.
-/

set_option autoImplicit false

namespace SceneScript.CommandLine

def Failure.message : Failure → String
  | .badTicks => "invalid value for --ticks"
  | .unreadableConfig => "failed to read config"
  | .badConfig => "failed to parse config"
  | .unreadableScript => "failed to read script"

/-- Reads a file that may not be named and may not be there. -/
def readFile : Option String → IO File
  | none => return .unnamed
  | some path => do
    match ← (IO.FS.readFile path).toBaseIO with
    | .ok content => return .text content
    | .error _ => return .unreadable

/-- More passes than a loop can make in any reasonable time. -/
def maxPasses : Nat := 1000000000000000000

/-- Prints an error and gives the exit code. -/
def fail (message : String) (code : Nat) : IO UInt32 := do
  IO.eprintln ("Error: " ++ message)
  return UInt32.ofNat code

end SceneScript.CommandLine

open SceneScript.CommandLine in
/-- Runs a script without a window and prints the report. -/
def main (arguments : List String) : IO UInt32 := do
  match Arguments.read? {} arguments with
  | none => fail "unknown or repeated argument" Failure.badTicks.exitCode
  | some named =>
    match named.ticks with
    | none => fail "there is no screen for a window; give --ticks" 1
    | some ticks =>
      let request := { script := ← readFile named.script, config := ← readFile named.config, ticks }
      match run maxPasses request with
      | none => fail "a loop makes too many passes" 1
      | some (.error failure) => fail failure.message failure.exitCode
      | some (.ok report) =>
        IO.print report
        return 0
