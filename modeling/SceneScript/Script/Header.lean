/-!
# Loop headers

The parts of a loop header are separated by semicolons. A semicolon inside
parentheses separates nothing.
-/

set_option autoImplicit false

namespace SceneScript.Script

/-- By how much a character changes the depth of parentheses. -/
def depthStep (c : Char) : Int :=
  if c = '(' then 1 else if c = ')' then -1 else 0

/-- Puts a character in front of the first of several parts. -/
def consFirst (c : Char) : List (List Char) → List (List Char)
  | [] => [[c]]
  | part :: parts => (c :: part) :: parts

/-- Divides a text at the semicolons outside parentheses, when it starts at the
given depth of parentheses. -/
def headerPartsFrom : Int → List Char → List (List Char)
  | _, [] => [[]]
  | depth, c :: rest =>
    if c = ';' ∧ depth = 0 then [] :: headerPartsFrom depth rest
    else consFirst c (headerPartsFrom (depth + depthStep c) rest)

/-- Divides a loop header at its semicolons. -/
def headerParts (header : List Char) : List (List Char) :=
  headerPartsFrom 0 header

end SceneScript.Script
