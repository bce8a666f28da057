import SceneScript.Decimal.Numeral
import SceneScript.Expr.Fault
import SceneScript.Text.Blank
import SceneScript.Text.Word

/-!
# From text to tokens

At each place the longest lexeme is taken: an operator or parenthesis, a name, or
a numeral. An `e` behind a numeral belongs to it only if an exponent follows;
otherwise it begins a name. ASCII blanks separate tokens and are dropped.
-/

set_option autoImplicit false

namespace SceneScript

open SceneScript.Text

namespace Lexeme

/-- The operator or parenthesis at the start of a text, with the count of
characters that it takes behind the first one. -/
def symbol? : List Char → Option (Lexeme × Nat)
  | '=' :: '=' :: _ => some (.operator .eq, 1)
  | '!' :: '=' :: _ => some (.operator .ne, 1)
  | '<' :: '=' :: _ => some (.operator .le, 1)
  | '>' :: '=' :: _ => some (.operator .ge, 1)
  | '=' :: _ => some (.assign, 0)
  | '<' :: _ => some (.operator .lt, 0)
  | '>' :: _ => some (.operator .gt, 0)
  | '+' :: _ => some (.operator .add, 0)
  | '-' :: _ => some (.operator .sub, 0)
  | '*' :: _ => some (.operator .mul, 0)
  | '/' :: _ => some (.operator .div, 0)
  | '%' :: _ => some (.operator .rem, 0)
  | '(' :: _ => some (.opening, 0)
  | ')' :: _ => some (.closing, 0)
  | _ => none

/-- The lexeme at the start of the text `first :: rest`, with the count of
characters that it takes of `rest`. -/
def longest (first : Char) (rest : List Char) : Except ClauseFault.Reason (Lexeme × Nat) :=
  match symbol? (first :: rest) with
  | some symbol => .ok symbol
  | none =>
    if first = '!' then .error .bareBang
    else if first.isDigit || first = '.' then
      let text := Decimal.numeral (first :: rest)
      match Decimal.read? text with
      | some value => .ok (.number (value.toFloat false), text.length - 1)
      | none => .error (.malformedNumber (String.ofList text))
    else if isWordStart first then
      let more := leadingWord rest
      .ok (.name (String.ofList (first :: more)), more.length)
    else .error (.strayCharacter first)

end Lexeme

/-- The tokens of a text whose first character stands in the given column. -/
def Tokens.readFrom (column : Nat) (text : List Char) : Except ClauseFault Tokens :=
  let start := column + (text.takeWhile isAsciiBlank).length
  match _text : skipBlanks text with
  | [] => .ok ⟨[], start⟩
  | first :: rest =>
    match Lexeme.longest first rest with
    | .error reason => .error ⟨start, reason⟩
    | .ok (lexeme, more) =>
      match Tokens.readFrom (start + 1 + more) (rest.drop more) with
      | .error fault => .error fault
      | .ok tokens => .ok (tokens.push ⟨lexeme, start⟩)
termination_by text.length
decreasing_by
  have skipped := (List.dropWhile_sublist isAsciiBlank (l := text)).length_le
  rw [← skipBlanks, _text, List.length_cons] at skipped
  rw [List.length_drop]
  omega

def Tokens.read (text : List Char) : Except ClauseFault Tokens :=
  Tokens.readFrom 1 text

end SceneScript
