import SceneScript.Fault
import SceneScript.Script.Header
import SceneScript.Script.Normal

/-!
# From statements to commands

A statement that is no command is dropped and leaves a fault; the other statements
of its block are not affected. The body of a loop is a block of its own: it is
brought to normal form, cut and read when its loop has been found to be in order.
The faults of a block are, in this order, the one that ended its cutting and those
of its statements.

The nesting of loops is limited, and the limit bounds the recursion: the bodies of
the loops of a block are read with one level less of room.
-/

set_option autoImplicit false

namespace SceneScript

open SceneScript.Text SceneScript.Script

/-- The commands of a script and its faults. -/
structure Program where
  commands : List Command
  faults : List Fault

/-- What a statement gives: a command or the reason why it is none, and the faults
in the bodies of its loops. -/
structure StatementResult where
  command : Except StatementFault Command
  bodyFaults : List Fault

namespace StatementResult

/-- The result of a statement without a body. -/
def plain (command : Except StatementFault Command) : StatementResult :=
  ⟨command, []⟩

def command? (result : StatementResult) : Option Command :=
  match result.command with
  | .ok command => some command
  | .error _ => none

/-- All faults of a statement: those of the bodies come first. -/
def faults (result : StatementResult) : List Fault :=
  match result.command with
  | .ok _ => result.bodyFaults
  | .error fault => result.bodyFaults ++ [.statement fault]

end StatementResult

namespace Script

/-! ## Calls -/

/-- The word in front of the methods of objects. -/
def objectWord : List Char := ['o', 'b', 'j', 'e', 'c', 't', '.']

/-- The text between the parentheses of a call; there are no others inside. -/
def argumentText? : List Char → Option (List Char)
  | '(' :: rest =>
    let inner := rest.dropLast
    if rest.getLast? = some ')' ∧ inner.all fun c => c ≠ '(' && c ≠ ')' then some inner else none
  | _ => none

/-- The command of a method with its arguments, if their count is right. -/
def callCommand? : Method → List String → Option Command
  | .create, [shape, name] => some (.create (Shape.ofToken shape) name)
  | .color, [name, color] => some (.color name color)
  | .move, [name, x, y] => some (.move name x y)
  | .collidable, [name, value] => some (.collidable name value)
  | _, _ => none

/-- Reads what follows `object.` in the given statement. -/
def readCall (call : List Char) (body : String) : Except StatementFault Command :=
  match argumentText? (trimStart (afterWord call)) with
  | none => .error (.malformedCall body)
  | some inner =>
    match Method.ofWord? (String.ofList (leadingWord call)) with
    | none => .error (.unknown body)
    | some method =>
      let arguments := (inner.splitOn ',').map fun argument => String.ofList (trim argument)
      match callCommand? method arguments with
      | none => .error (.wrongArity method arguments.length body)
      | some command => .ok command

/-! ## Assignments -/

/-- Reads a name, a single equals sign and a right-hand side. -/
def readAssignment? (body : List Char) : Option Command :=
  if !body.head?.any isWordStart then none
  else
    match skipBlanks (afterWord body) with
    | '=' :: rest =>
      if rest.head? = some '=' ∨ trim rest = [] then none
      else some (.assign (String.ofList (leadingWord body)) (Clause.ofText (trim rest)))
    | _ => none

/-! ## Loops -/

/-- The text of a loop taken apart. -/
structure LoopText where
  init : List Char
  condition : List Char
  increment : List Char
  body : List Char

/-- What stands between the first and the last character of a text. -/
def interior (text : List Char) : List Char :=
  text.tail.dropLast

/-- Takes a loop apart. Its header has three parts that are not blank, and its body
ends the statement. -/
def loopText? (statement : List Char) : Option LoopText :=
  match balanced? '(' ')' (skipBlanks (statement.drop loopKeyword.length)) with
  | none => none
  | some (header, afterHeader) =>
    match headerParts (interior header) with
    | [init, condition, increment] =>
      if trim init = [] ∨ trim condition = [] ∨ trim increment = [] then none
      else
        match balanced? '{' '}' (skipBlanks afterHeader) with
        | some (block, []) => some ⟨init, condition, increment, interior block⟩
        | _ => none
    | _ => none

/-- Reads a loop. The body is read by `readBody`, which is missing if loops must
not nest any deeper. -/
def readLoop (readBody : Option (List Char → Program)) (statement : List Char) :
    StatementResult :=
  match loopText? statement with
  | none => .plain (.error (.malformedLoop (String.ofList statement)))
  | some loop =>
    match readBody with
    | none => .plain (.error .loopTooDeep)
    | some readBody =>
      let body := readBody loop.body
      ⟨.ok (.loop (Clause.ofText loop.init) (Clause.ofText loop.condition)
        (Clause.ofText loop.increment) body.commands), body.faults⟩

/-! ## Statements and blocks -/

/-- Reads a statement that is no loop. -/
def readSimple (statement : List Char) : Except StatementFault Command :=
  if statement.getLast? ≠ some ';' then .error (.unterminated (String.ofList statement))
  else
    let body := trim statement.dropLast
    if objectWord.isPrefixOf body then
      readCall (body.drop objectWord.length) (String.ofList body)
    else
      match readAssignment? body with
      | none => .error (.unknown (String.ofList body))
      | some command => .ok command

def readStatementWith (readBody : Option (List Char → Program)) (text : List Char) :
    StatementResult :=
  let statement := trim text
  if startsLoop statement then readLoop readBody statement
  else .plain (readSimple statement)

def readBlockWith (readBody : Option (List Char → Program)) (code : List Char) : Program :=
  let cut := cut (normalize code)
  let results := cut.statements.map (readStatementWith readBody)
  { commands := results.filterMap StatementResult.command?
    faults := (cut.halted.map Fault.cut).toList ++ results.flatMap StatementResult.faults }

/-- The reader for the bodies of loops where the given count of loops may still
nest. -/
def bodyReader : Nat → Option (List Char → Program)
  | 0 => none
  | room + 1 => some (readBlockWith (bodyReader room))

/-- Reads a statement outside of all loops. -/
def readStatement (text : List Char) : StatementResult :=
  readStatementWith (bodyReader maxLoopNesting) text

/-- Reads statements one after another. Each result comes with the faults found in
bodies up to then, those of `collected` first. -/
def readStatements (collected : List Fault) :
    List (List Char) → List (StatementResult × List Fault)
  | [] => []
  | text :: rest =>
    let result := readStatement text
    let collected := collected ++ result.bodyFaults
    (result, collected) :: readStatements collected rest

end Script

def Program.ofText (source : List Char) : Program :=
  readBlockWith (bodyReader maxLoopNesting) source

end SceneScript
