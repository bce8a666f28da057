import SceneScript.CommandLine

/-!
# Command line arguments

A command line may name one script, a file of settings and a count of frames. An
option and its value are two arguments, or one with an equals sign between them.
-/

set_option autoImplicit false

namespace SceneScript.CommandLine

/-- What a command line says. -/
structure Arguments where
  script : Option String := none
  config : Option String := none
  ticks : Option String := none

namespace Arguments

/-- The value of an option that is written with an equals sign. -/
def value? (option argument : String) : Option String :=
  let start := option.toList ++ ['=']
  if start.isPrefixOf argument.toList then
    some (String.ofList (argument.toList.drop start.length))
  else none

/-- Reads arguments one after another. `none` if an option is not known or has no
value, or if something is given twice. -/
def read? (arguments : Arguments) : List String → Option Arguments
  | [] => some arguments
  | [argument] => readLast? arguments argument
  | argument :: next :: rest =>
    if argument = "--config" ∨ argument = "-c" then
      if arguments.config.isSome then none else read? { arguments with config := some next } rest
    else if argument = "--ticks" then
      if arguments.ticks.isSome then none else read? { arguments with ticks := some next } rest
    else
      match readLast? arguments argument with
      | none => none
      | some arguments => read? arguments (next :: rest)
where
  /-- Reads an argument that stands alone. -/
  readLast? (arguments : Arguments) (argument : String) : Option Arguments :=
    match value? "--config" argument, value? "--ticks" argument with
    | some value, _ =>
      if arguments.config.isSome then none else some { arguments with config := some value }
    | none, some value =>
      if arguments.ticks.isSome then none else some { arguments with ticks := some value }
    | none, none =>
      if arguments.script.isSome ∨ argument.toList.head? = some '-' then none
      else some { arguments with script := some argument }

end Arguments

end SceneScript.CommandLine
