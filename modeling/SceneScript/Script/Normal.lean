import SceneScript.Text.Blank

/-!
# Normal form of a script

Before a script is cut into statements, comments and line ends are taken out: of
each line only what stands before `//` is kept, trimmed, and the lines that are
left and not empty are joined with one space.
-/

set_option autoImplicit false

namespace SceneScript.Script

open SceneScript.Text

/-- The part of a line before a comment. -/
def beforeComment : List Char → List Char
  | '/' :: '/' :: _ => []
  | c :: rest => c :: beforeComment rest
  | [] => []

/-- The code on each line of a script, without empty lines. -/
def codeLines (source : List Char) : List (List Char) :=
  ((source.splitOn '\n').map (trim ∘ beforeComment)).filter (· ≠ [])

/-- A script on one line and without comments. -/
def normalize (source : List Char) : List Char :=
  [' '].intercalate (codeLines source)

end SceneScript.Script
