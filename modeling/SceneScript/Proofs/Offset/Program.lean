import SceneScript.Proofs.Offset.Loop
import SceneScript.Proofs.Offset.Parser
import SceneScript.Proofs.Script.Piece

/-!
# Programs by offset

A script is read with hand-counted offsets throughout, through all bodies of its
loops. `readProgram` gives out the program that `Program.ofText` gives, so no access
is wrong: every part is taken out between two places, every index is in its list, and
no count falls below zero.
-/

set_option autoImplicit false

namespace SceneScript.Offset

open SceneScript.Text SceneScript.Script

/-! ## Clauses -/

def readClause (text : List Char) : Checked Clause := do
  let source := trim text
  match ← readItems source with
  | .error fault => return ⟨String.ofList source, .error fault⟩
  | .ok items =>
    let tree ← (parse items).run
    return ⟨String.ofList source, tree⟩

theorem readClause_eq_ok (text : List Char) : readClause text = .ok (Clause.ofText text) := by
  simp only [readClause, readItems_eq_ok, ok_bind, Clause.ofText, Expr.ofText]
  cases Tokens.read (trim text) with
  | error fault => rfl
  | ok tokens =>
      simp only [Except.map, parse_items, ok_bind]
      rfl

/-! ## Calls -/

/-- Divides a text at an offset. -/
def splitAt (text : List Char) (offset : Nat) : Checked (List Char × List Char) :=
  match divide? text offset with
  | none => .error .slice
  | some parts => .ok parts

/-- The command of a method, with its arguments by their indices. -/
def callCommand (method : Method) (arguments : List String) : Checked Command := do
  let first ← itemAt arguments 0
  let second ← itemAt arguments 1
  match method with
  | .create => return .create (Shape.ofToken first) second
  | .color => return .color first second
  | .collidable => return .collidable first second
  | .move =>
    let third ← itemAt arguments 2
    return .move first second third

def readCall (call : List Char) (body : String) : Checked (Except StatementFault Command) := do
  let (word, rest) ← splitAt call ((bytes call).takeWhile isWordChar).length
  match argumentText? (trimStart rest) with
  | none => return .error (.malformedCall body)
  | some inner =>
    match Method.ofWord? (String.ofList word) with
    | none => return .error (.unknown body)
    | some method =>
      let arguments := (inner.splitOn ',').map fun argument => String.ofList (trim argument)
      if arguments.length ≠ method.arity then
        return .error (.wrongArity method arguments.length body)
      else
        let command ← callCommand method arguments
        return .ok command

theorem exists_callCommand {method : Method} {arguments : List String}
    (count : arguments.length = method.arity) :
    ∃ command, callCommand? method arguments = some command ∧
      callCommand method arguments = .ok command := by
  cases method with
  | move =>
      obtain ⟨first, second, third, rfl⟩ := List.length_eq_three.mp count
      exact ⟨_, rfl, rfl⟩
  | _ =>
      obtain ⟨first, second, rfl⟩ := List.length_eq_two.mp count
      exact ⟨_, rfl, rfl⟩

theorem callCommand?_eq_none {method : Method} {arguments : List String}
    (count : arguments.length ≠ method.arity) : callCommand? method arguments = none := by
  unfold callCommand?
  split
  · exact absurd rfl count
  · exact absurd rfl count
  · exact absurd rfl count
  · exact absurd rfl count
  · rfl

theorem splitAt_leadingWord (call : List Char) :
    splitAt call ((bytes call).takeWhile isWordChar).length =
      .ok (leadingWord call, afterWord call) := by
  have divided : divide? call (leadingWord call).length =
      some (leadingWord call, afterWord call) := by
    apply divide?_eq_some_iff.mpr
    exact ⟨(leadingWord_append_afterWord call).symm,
      (size_takeWhile isAsciiClass_isWordChar call).symm⟩
  rw [splitAt, takeWhile_bytes isAsciiClass_isWordChar, ← leadingWord, divided]

theorem readCall_eq_ok (call : List Char) (body : String) :
    readCall call body = .ok (Script.readCall call body) := by
  simp only [readCall, splitAt_leadingWord, ok_bind, Script.readCall]
  cases argumentText? (trimStart (afterWord call)) with
  | none => rfl
  | some inner =>
      cases Method.ofWord? (String.ofList (leadingWord call)) with
      | none => rfl
      | some method =>
          dsimp only
          generalize (inner.splitOn ',').map (fun argument => String.ofList (trim argument)) =
            arguments
          by_cases count : arguments.length = method.arity
          · obtain ⟨command, known, found⟩ := exists_callCommand count
            rw [if_neg (not_not.mpr count), found, known]
            rfl
          · rw [if_pos count, callCommand?_eq_none count]
            rfl

/-! ## Assignments -/

def readAssignment (body : List Char) : Checked (Option Command) := do
  if !(bytes body).head?.any isWordStart then return none
  else
    let length := ((bytes body).takeWhile isWordChar).length
    let equals ← skipBlanks (bytes body) length
    if (bytes body)[equals]? ≠ some '=' ∨ (bytes body)[equals + 1]? = some '=' then return none
    else
      let right ← slice body (equals + 1) (size body)
      if trim right = [] then return none
      else
        let name ← slice body 0 length
        let value ← readClause (trim right)
        return some (.assign (String.ofList name) value)

theorem readAssignment_eq_ok (body : List Char) :
    readAssignment body = .ok (readAssignment? body) := by
  have taken : (bytes body).takeWhile isWordChar = leadingWord body :=
    takeWhile_bytes isAsciiClass_isWordChar body
  have atRest : IsPlace body (0 + (leadingWord body).length) (afterWord body) :=
    (isPlace_zero body).takeWhile isAsciiClass_isWordChar
  have name : slice body 0 (leadingWord body).length = .ok (leadingWord body) := by
    have whole : IsPlace body 0 (leadingWord body ++ afterWord body) := by
      rw [leadingWord_append_afterWord]
      exact isPlace_zero body
    simpa [leadingWord, size_takeWhile isAsciiClass_isWordChar] using whole.slice
  rw [Nat.zero_add] at atRest
  have atEquals := atRest.skipBlanks
  simp only [readAssignment, readAssignment?, any_head?_bytes isAsciiClass_isWordStart, taken,
    skipBlanks_of_isPlace atRest, ok_bind, atEquals.head?, name]
  split
  · rfl
  cases shape : Text.skipBlanks (afterWord body) with
  | nil => rfl
  | cons c right =>
      have first : (bytes (c :: right)).head? = some '=' ↔ c = '=' := by
        rw [head?_bytes_eq_some_iff (by decide), List.head?_cons, Option.some.injEq]
      by_cases equals : c = '='
      · subst equals
        rw [shape] at atEquals
        have behind := atEquals.succ (by decide)
        have second : (bytes right).head? = some '=' ↔ right.head? = some '=' :=
          head?_bytes_eq_some_iff (by decide)
        simp only [ne_eq, first.mpr rfl, not_true_eq_false, false_or, behind.head?, second,
          behind.slice_rest, readClause_eq_ok, ok_bind]
        by_cases twice : right.head? = some '='
        · rw [if_pos twice, if_pos (.inl twice)]
          rfl
        · by_cases blank : trim right = [] <;> simp [twice, blank]
      · rw [if_pos (.inl (mt first.mp equals))]
        split
        · rename_i _ rest same
          exact absurd (List.cons.inj same).1 equals
        · rfl

/-! ## Statements -/

def readSimple (statement : List Char) : Checked (Except StatementFault Command) := do
  if statement.getLast? ≠ some ';' then return .error (.unterminated (String.ofList statement))
  else
    let body := trim statement.dropLast
    if objectWord.isPrefixOf body then
      readCall (body.drop objectWord.length) (String.ofList body)
    else
      match ← readAssignment body with
      | none => return .error (.unknown (String.ofList body))
      | some command => return .ok command

/-- Reads a block inside of the given count of loops, and gives that count back. -/
abbrev BlockReader := Nat → List Char → Checked (Program × Nat)

def readLoop (readBody : BlockReader) (depth : Nat) (statement : List Char) :
    Checked (StatementResult × Nat) := do
  match ← loopText statement with
  | none => return (.plain (.error (.malformedLoop (String.ofList statement))), depth)
  | some loop =>
    if maxLoopNesting ≤ depth then return (.plain (.error .loopTooDeep), depth)
    else
      let (body, inner) ← readBody (depth + 1) loop.body
      let depth ← decrement inner
      let init ← readClause loop.init
      let condition ← readClause loop.condition
      let increment ← readClause loop.increment
      return (⟨.ok (.loop init condition increment body.commands), body.faults⟩, depth)

def readStatement (readBody : BlockReader) (depth : Nat) (text : List Char) :
    Checked (StatementResult × Nat) := do
  let statement := trim text
  if startsLoop statement then readLoop readBody depth statement
  else
    let command ← readSimple statement
    return (.plain command, depth)

/-- Reads statements one after another. -/
def readEach (readBody : BlockReader) : Nat → List (List Char) →
    Checked (List StatementResult × Nat)
  | depth, [] => return ([], depth)
  | depth, text :: rest => do
    let (result, depth) ← readStatement readBody depth text
    let (results, depth) ← readEach readBody depth rest
    return (result :: results, depth)

def readBlock (readBody : BlockReader) : BlockReader := fun depth code => do
  let code ← normalize code
  let (statements, halted) ← cutFrom code 0
  let (results, depth) ← readEach readBody depth statements
  return (⟨results.filterMap StatementResult.command?,
    (halted.map Fault.cut).toList ++ results.flatMap StatementResult.faults⟩, depth)

/-- The reader of blocks where the given count of blocks may stand in each other. -/
def blockReader : Nat → BlockReader
  | 0 => fun _ _ => .error .stuck
  | room + 1 => readBlock (blockReader room)

def readProgram (source : List Char) : Checked Program := do
  let (program, _) ← blockReader (maxLoopNesting + 1) 0 source
  return program

theorem readSimple_eq_ok (statement : List Char) :
    readSimple statement = .ok (Script.readSimple statement) := by
  simp only [readSimple, Script.readSimple, readCall_eq_ok, readAssignment_eq_ok, ok_bind]
  split
  · rfl
  split
  · rfl
  · cases readAssignment? (trim statement.dropLast) <;> rfl

/-! ## Sizes

What is read inside a script is not longer than the script. -/

theorem size_trim_le (text : List Char) : size (trim text) ≤ size text :=
  size_le_of_sublist (trim_within text).sublist

theorem size_normalize_le (source : List Char) : size (Script.normalize source) ≤ size source := by
  induction source using lines_induct with
  | line text noLineFeed =>
      rw [normalize_of_one_line noLineFeed]
      exact Nat.le_trans (size_trim_le _) (size_le_of_sublist (beforeComment_begins text).sublist)
  | join left right leftIH rightIH =>
      have space : (encode ' ').length = (encode '\n').length := by decide
      rcases normalize_append_lineFeed_cases left right with joined | joined | ⟨-, -, joined⟩
      · rw [joined, size_append, size_cons]
        omega
      · rw [joined, size_append, size_cons]
        omega
      · rw [joined, size_append, size_append, size_cons, size_cons]
        omega

theorem size_le_of_mem_statements {code text : List Char} (member : text ∈ (cut code).statements) :
    size text ≤ size code :=
  size_le_of_sublist (within_of_mem_statements member).sublist

/-! ## Programs -/

/-- Bodies are read as the model reads them, one level further in, as long as loops may
nest deeper. -/
def ReadsBodies (readBody : BlockReader) (depth : Nat) : Option (List Char → Program) → Prop
  | none => maxLoopNesting ≤ depth
  | some read => depth < maxLoopNesting ∧
      ∀ code, size code < 2147483648 → readBody (depth + 1) code = .ok (read code, depth + 1)

section
variable {readBody : BlockReader} {depth : Nat} {model : Option (List Char → Program)}
  (bodies : ReadsBodies readBody depth model)
include bodies

theorem readLoop_eq_ok {statement : List Char} (starts : Text.startsLoop statement = true)
    (short : size statement < 2147483648) :
    readLoop readBody depth statement = .ok (Script.readLoop model statement, depth) := by
  simp only [readLoop, Script.readLoop, loopText_of_startsLoop starts short, ok_bind]
  cases taken : loopText? statement with
  | none => rfl
  | some loop =>
      cases model with
      | none =>
          simp only [if_pos (show maxLoopNesting ≤ depth from bodies)]
          rfl
      | some read =>
          obtain ⟨room, reads⟩ := bodies
          obtain ⟨front, shape⟩ := exists_body_of_loopText? taken
          have within : size loop.body ≤ size statement := by
            rw [shape, size_append, size_cons, size_append]
            omega
          simp only [if_neg (Nat.not_le_of_lt room), reads loop.body (by omega), ok_bind,
            decrement_succ, readClause_eq_ok, pure_eq_ok]

theorem readStatement_eq_ok {text : List Char} (short : size text < 2147483648) :
    readStatement readBody depth text = .ok (readStatementWith model text, depth) := by
  have trimmed := size_trim_le text
  simp only [readStatement, readStatementWith, startsLoop_eq]
  by_cases starts : Text.startsLoop (trim text) = true
  · rw [if_pos starts, if_pos starts, readLoop_eq_ok bodies starts (by omega)]
  · rw [if_neg starts, if_neg starts, readSimple_eq_ok]
    rfl

theorem readEach_eq_ok {statements : List (List Char)}
    (short : ∀ text ∈ statements, size text < 2147483648) :
    readEach readBody depth statements =
      .ok (statements.map (readStatementWith model), depth) := by
  induction statements with
  | nil => rfl
  | cons text rest ih =>
      obtain ⟨first, more⟩ := List.forall_mem_cons.mp short
      simp only [readEach, readStatement_eq_ok bodies first, ih more, ok_bind, pure_eq_ok,
        List.map_cons]

theorem readBlock_eq_ok {code : List Char} (short : size code < 2147483648) :
    readBlock readBody depth code = .ok (readBlockWith model code, depth) := by
  have statements : ∀ text ∈ (cut (Script.normalize code)).statements, size text < 2147483648 := by
    intro text member
    have normal := size_normalize_le code
    have within := size_le_of_mem_statements member
    omega
  simp only [readBlock, normalize_eq_ok, cutFrom_of_isPlace (isPlace_zero _), ok_bind,
    readEach_eq_ok bodies statements]
  rfl

end

theorem blockReader_eq_ok {depth room : Nat} (total : depth + room = maxLoopNesting)
    {code : List Char} (short : size code < 2147483648) :
    blockReader (room + 1) depth code = .ok (readBlockWith (bodyReader room) code, depth) := by
  induction room generalizing depth code with
  | zero =>
      have full : ReadsBodies (blockReader 0) depth none := Nat.le_of_eq total.symm
      exact readBlock_eq_ok full short
  | succ room ih =>
      have bodies : ReadsBodies (blockReader (room + 1)) depth (bodyReader (room + 1)) :=
        ⟨by omega, fun code short => ih (by omega) short⟩
      exact readBlock_eq_ok bodies short

/-- No access of the reader is wrong: a text of less than two to the power of 31 bytes
is read to the end, whatever it contains, and gives the program of the text. -/
theorem readProgram_eq_ok (source : List Char) (short : size source < 2147483648) :
    readProgram source = .ok (Program.ofText source) := by
  rw [readProgram, blockReader_eq_ok (Nat.zero_add _) short]
  rfl

/-- Characters of several bytes beside every mark, a loop with a bad header, and a loop
that is not closed. -/
theorem readProgram_eq_ok_of_malformed_script :
    let source := "é=ä;ü = ß;for(é;(ö);ü)\x7bx=€;for(;)\x7b\x7d\x7dfor(ä\x7b".toList
    size source < 2147483648 ∧ readProgram source = .ok (Program.ofText source) :=
  ⟨by decide, readProgram_eq_ok _ (by decide)⟩

end SceneScript.Offset
