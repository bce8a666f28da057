import SceneScript.Text.Blank
import SceneScript.Text.Delimiter
import SceneScript.Text.Word

/-!
# Statements

A script in normal form is cut into pieces from left to right, ASCII blanks
between them being skipped. A piece that begins with the loop keyword is a whole
loop, up to the brace that closes its body; any other piece goes up to and
including the next semicolon. Cutting ends at the end of the text, at a text
without a semicolon, or at a loop that is not complete; `Cut.leftover` is the text
at which it ended.
-/

set_option autoImplicit false

namespace SceneScript.Script

open SceneScript.Text

/-- What a loop lacks for its end to be found. -/
inductive CutFault where
  /-- No opening parenthesis follows. -/
  | noHeader
  /-- The parenthesis of the header is never closed. -/
  | openHeader
  /-- No opening brace follows the header. -/
  | noBody
  /-- The brace of the body is never closed. -/
  | openBody
deriving Repr, DecidableEq

def CutFault.message : CutFault → String
  | .noHeader => "expected `(` after for"
  | .openHeader => "unmatched parentheses in for statement"
  | .noBody => "expected `\x7b` after for(...)"
  | .openBody => "unmatched braces in for loop"

/-- Divides a text that starts with a loop behind the brace that closes its body.
The header begins at the first parenthesis, wherever it stands. -/
def loopBlock (text : List Char) : Except CutFault (List Char × List Char) :=
  let lead := text.takeWhile (· ≠ '(')
  let fromHeader := text.dropWhile (· ≠ '(')
  if fromHeader = [] then .error .noHeader
  else
    match balanced? '(' ')' fromHeader with
    | none => .error .openHeader
    | some (header, afterHeader) =>
      let gap := afterHeader.takeWhile isAsciiBlank
      let fromBody := skipBlanks afterHeader
      if fromBody.head? ≠ some '{' then .error .noBody
      else
        match balanced? '{' '}' fromBody with
        | none => .error .openBody
        | some (body, rest) => .ok (lead ++ (header ++ (gap ++ body)), rest)

/-- Divides a text behind its first semicolon. -/
def throughSemicolon (text : List Char) : Option (List Char × List Char) :=
  match text.dropWhile (· ≠ ';') with
  | [] => none
  | semicolon :: rest => some (text.takeWhile (· ≠ ';') ++ [semicolon], rest)

/-- One piece of a script, as it stands in the text. -/
inductive Piece where
  /-- Everything up to and including a semicolon. -/
  | simple (text : List Char)
  /-- A loop with its header and body. -/
  | loop (text : List Char)
deriving Repr, DecidableEq

def Piece.text : Piece → List Char
  | .simple text => text
  | .loop text => text

/-- A script cut into pieces. -/
structure Cut where
  pieces : List Piece
  /-- Where cutting ended. -/
  leftover : List Char
  /-- Why cutting ended before a loop, if it did. -/
  halted : Option CutFault

/-- The statements of a script: its pieces, trimmed. -/
def Cut.statements (cut : Cut) : List (List Char) :=
  cut.pieces.map fun piece => trim piece.text

/-- A script with one more piece in front. -/
def Cut.push (piece : Piece) (cut : Cut) : Cut :=
  { cut with pieces := piece :: cut.pieces }

theorem append_of_loopBlock {text block rest : List Char}
    (found : loopBlock text = .ok (block, rest)) : block ++ rest = text := by
  simp only [loopBlock] at found
  split at found
  · cases found
  split at found
  · cases found
  rename_i header afterHeader headerFound
  split at found
  · cases found
  split at found
  · cases found
  rename_i body rest' bodyFound
  simp only [Except.ok.injEq, Prod.mk.injEq] at found
  obtain ⟨rfl, rfl⟩ := found
  rw [List.append_assoc, List.append_assoc, List.append_assoc, append_of_balanced? bodyFound,
    skipBlanks, List.takeWhile_append_dropWhile, append_of_balanced? headerFound,
    List.takeWhile_append_dropWhile]

theorem length_lt_of_loopBlock {text block rest : List Char}
    (found : loopBlock text = .ok (block, rest)) : rest.length < text.length := by
  simp only [loopBlock] at found
  split at found
  · cases found
  split at found
  · cases found
  rename_i header afterHeader headerFound
  split at found
  · cases found
  split at found
  · cases found
  rename_i body rest' bodyFound
  simp only [Except.ok.injEq, Prod.mk.injEq] at found
  obtain ⟨-, rfl⟩ := found
  have inBody := length_lt_of_balanced? bodyFound
  have inHeader := length_lt_of_balanced? headerFound
  have skipped := (List.dropWhile_sublist isAsciiBlank (l := afterHeader)).length_le
  have dropped := (List.dropWhile_sublist (· ≠ '(') (l := text)).length_le
  rw [skipBlanks] at inBody
  omega

theorem append_of_throughSemicolon {text statement rest : List Char}
    (found : throughSemicolon text = some (statement, rest)) : statement ++ rest = text := by
  rw [throughSemicolon] at found
  split at found
  · cases found
  · rename_i semicolon rest' dropped
    simp only [Option.some.injEq, Prod.mk.injEq] at found
    obtain ⟨rfl, rfl⟩ := found
    rw [List.append_assoc, List.singleton_append, ← dropped, List.takeWhile_append_dropWhile]

theorem length_lt_of_throughSemicolon {text statement rest : List Char}
    (found : throughSemicolon text = some (statement, rest)) : rest.length < text.length := by
  rw [throughSemicolon] at found
  split at found
  · cases found
  · rename_i semicolon rest' dropped
    simp only [Option.some.injEq, Prod.mk.injEq] at found
    obtain ⟨-, rfl⟩ := found
    have shorter := (List.dropWhile_sublist (· ≠ ';') (l := text)).length_le
    rw [dropped, List.length_cons] at shorter
    omega

theorem length_skipBlanks_le (text : List Char) : (skipBlanks text).length ≤ text.length :=
  (List.dropWhile_sublist isAsciiBlank).length_le

/-- Cuts a script in normal form into its pieces. -/
def cut (code : List Char) : Cut :=
  let text := skipBlanks code
  if text = [] then ⟨[], [], none⟩
  else if startsLoop text then
    match _found : loopBlock text with
    | .error fault => ⟨[], text, some fault⟩
    | .ok (block, rest) => (cut rest).push (.loop block)
  else
    match _found : throughSemicolon text with
    | none => ⟨[], text, none⟩
    | some (statement, rest) => (cut rest).push (.simple statement)
termination_by code.length
decreasing_by
  · exact Nat.lt_of_lt_of_le (length_lt_of_loopBlock _found) (length_skipBlanks_le code)
  · exact Nat.lt_of_lt_of_le (length_lt_of_throughSemicolon _found) (length_skipBlanks_le code)

end SceneScript.Script
