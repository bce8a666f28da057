/-!
# Matching delimiters

The end of a bracketed stretch is found by counting: an opening delimiter opens
one level, a closing one closes a level, and everything else is passed over.
Works on lists of any elements, so that it serves texts and byte strings alike.
-/

set_option autoImplicit false

namespace SceneScript.Text

variable {α : Type} [DecidableEq α]

/-- The count of elements up to and including the closing delimiter that closes
the last of `depth` levels, or `none` if the levels are never all closed. -/
def closingLength (opening closing : α) : Nat → List α → Option Nat
  | _, [] => none
  | depth, x :: rest =>
    if x = opening then (closingLength opening closing (depth + 1) rest).map (· + 1)
    else if x = closing then
      if depth ≤ 1 then some 1
      else (closingLength opening closing (depth - 1) rest).map (· + 1)
    else (closingLength opening closing depth rest).map (· + 1)

/-- The index one past the delimiter that closes the one at index `start`.
`none` if no opening delimiter stands there, or if it is never closed. -/
def matchingClose (text : List α) (start : Nat) (opening closing : α) : Option Nat :=
  if text[start]? = some opening then
    (closingLength opening closing 0 (text.drop start)).map (start + ·)
  else none

/-- Divides a text that starts with an opening delimiter behind the delimiter
that closes it. -/
def balanced? (opening closing : α) (text : List α) : Option (List α × List α) :=
  (matchingClose text 0 opening closing).map text.splitAt

theorem append_of_balanced? {opening closing : α} {text block rest : List α}
    (found : balanced? opening closing text = some (block, rest)) : block ++ rest = text := by
  simp only [balanced?, Option.map_eq_some_iff] at found
  obtain ⟨count, _, parts⟩ := found
  rw [List.splitAt_eq, Prod.mk.injEq] at parts
  rw [← parts.1, ← parts.2, List.take_append_drop]

theorem closingLength_pos {opening closing : α} {depth count : Nat} {text : List α}
    (found : closingLength opening closing depth text = some count) : 0 < count := by
  fun_cases closingLength opening closing depth text <;>
    simp_all only [closingLength, if_true, if_false, Option.map_eq_some_iff] <;> grind

theorem length_lt_of_balanced? {opening closing : α} {text block rest : List α}
    (found : balanced? opening closing text = some (block, rest)) : rest.length < text.length := by
  simp only [balanced?, matchingClose, Option.map_eq_some_iff] at found
  obtain ⟨count, closed, parts⟩ := found
  rw [List.splitAt_eq, Prod.mk.injEq] at parts
  split at closed
  · rename_i opens
    rw [Option.map_eq_some_iff] at closed
    obtain ⟨inner, innerClosed, rfl⟩ := closed
    have positive := closingLength_pos innerClosed
    have nonempty : 0 < text.length := (List.getElem?_eq_some_iff.mp opens).1
    rw [← parts.2, List.length_drop]
    omega
  · cases closed

end SceneScript.Text
