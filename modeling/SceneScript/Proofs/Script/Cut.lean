import SceneScript.Proofs.Text.Blank
import SceneScript.Proofs.Text.Delimiter
import SceneScript.Proofs.Text.Word
import SceneScript.Script.Statement

/-!
# How a script is cut

Cutting goes from left to right and never looks behind the end of a piece, except
that the character behind `for` decides whether it is the keyword. So a script that
is cut to its end is cut in the same way with another script behind a space.
-/

set_option autoImplicit false

namespace SceneScript.Script

open SceneScript.Text

/-! ## One piece -/

theorem loopBlock_append {text block rest : List Char} (found : loopBlock text = .ok (block, rest))
    (more : List Char) : loopBlock (text ++ more) = .ok (block, rest ++ more) := by
  simp only [loopBlock] at found
  split at found
  · cases found
  rename_i hasHeader
  split at found
  · cases found
  rename_i header afterHeader headerFound
  split at found
  · cases found
  rename_i hasBody
  split at found
  · cases found
  rename_i body afterBody bodyFound
  simp only [Except.ok.injEq, Prod.mk.injEq] at found
  obtain ⟨rfl, rfl⟩ := found
  have solidBody : skipBlanks afterHeader ≠ [] := by
    intro empty
    simp [empty] at hasBody
  have head : (skipBlanks afterHeader ++ more).head? = (skipBlanks afterHeader).head? :=
    List.head?_append_of_ne_nil _ solidBody
  simp only [loopBlock, dropWhile_append_of_ne_nil hasHeader more,
    takeWhile_append_of_ne_nil hasHeader more, balanced?_append headerFound more, skipBlanks,
    dropWhile_append_of_ne_nil solidBody more, takeWhile_append_of_ne_nil solidBody more]
  rw [if_neg (fun empty => hasHeader (List.append_eq_nil_iff.mp empty).1), ← skipBlanks, head,
    if_neg hasBody, balanced?_append bodyFound more]

theorem throughSemicolon_append {text statement rest : List Char}
    (found : throughSemicolon text = some (statement, rest)) (more : List Char) :
    throughSemicolon (text ++ more) = some (statement, rest ++ more) := by
  rw [throughSemicolon] at found ⊢
  split at found
  · cases found
  rename_i semicolon after dropped
  simp only [Option.some.injEq, Prod.mk.injEq] at found
  obtain ⟨rfl, rfl⟩ := found
  have stops : text.dropWhile (· ≠ ';') ≠ [] := by
    rw [dropped]
    exact List.cons_ne_nil _ _
  rw [dropWhile_append_of_ne_nil stops, takeWhile_append_of_ne_nil stops, dropped]
  rfl

theorem throughSemicolon_of_not_mem {body : List Char} (none : ';' ∉ body) (rest : List Char) :
    throughSemicolon (body ++ ';' :: rest) = some (body ++ [';'], rest) := by
  have all : ∀ c ∈ body, decide (c ≠ ';') = true := by
    intro c member
    simp only [ne_eq, decide_not, Bool.not_eq_true', decide_eq_false_iff_not]
    rintro rfl
    exact none member
  rw [throughSemicolon, List.dropWhile_append_of_pos all, List.takeWhile_append_of_pos all]
  simp

/-! ## One step of cutting -/

theorem cut_skipBlanks (code : List Char) : cut (skipBlanks code) = cut code := by
  rw [cut, cut, skipBlanks_idem]

theorem cut_of_skipBlanks_nil {code : List Char} (empty : skipBlanks code = []) :
    cut code = ⟨[], [], none⟩ := by
  rw [cut, if_pos empty]

theorem cut_of_loopBlock {code block rest : List Char} (solid : skipBlanks code ≠ [])
    (starts : startsLoop (skipBlanks code) = true)
    (found : loopBlock (skipBlanks code) = .ok (block, rest)) :
    cut code = (cut rest).push (.loop block) := by
  rw [cut]
  simp only [if_neg solid, if_pos starts]
  split
  · rename_i fault failed
    rw [failed] at found
    cases found
  · rename_i other after foundAgain
    rw [foundAgain] at found
    cases found
    rfl

theorem cut_of_throughSemicolon {code statement rest : List Char} (solid : skipBlanks code ≠ [])
    (simple : startsLoop (skipBlanks code) = false)
    (found : throughSemicolon (skipBlanks code) = some (statement, rest)) :
    cut code = (cut rest).push (.simple statement) := by
  rw [cut]
  simp only [if_neg solid, simple, Bool.false_eq_true, if_false]
  split
  · rename_i failed
    rw [failed] at found
    cases found
  · rename_i other after foundAgain
    rw [foundAgain] at found
    cases found
    rfl

theorem cut_of_incomplete_loop {code : List Char} {fault : CutFault} (solid : skipBlanks code ≠ [])
    (starts : startsLoop (skipBlanks code) = true)
    (failed : loopBlock (skipBlanks code) = .error fault) :
    cut code = ⟨[], skipBlanks code, some fault⟩ := by
  rw [cut]
  simp only [if_neg solid, if_pos starts]
  split
  · rename_i other failedAgain
    rw [failedAgain] at failed
    cases failed
    rfl
  · rename_i block rest found
    rw [found] at failed
    cases failed

theorem cut_of_no_semicolon {code : List Char} (solid : skipBlanks code ≠ [])
    (simple : startsLoop (skipBlanks code) = false)
    (failed : throughSemicolon (skipBlanks code) = none) :
    cut code = ⟨[], skipBlanks code, none⟩ := by
  rw [cut]
  simp only [if_neg solid, simple, Bool.false_eq_true, if_false]
  split
  · rfl
  · rename_i statement rest found
    rw [found] at failed
    cases failed

/-! ## Scripts behind each other -/

/-- The pieces of one script in front of those of another. -/
def Cut.append (first second : Cut) : Cut :=
  ⟨first.pieces ++ second.pieces, second.leftover, second.halted⟩

/-- A script that is cut to its end is cut in the same way with another one behind
it. -/
theorem cut_append_space {code : List Char} (complete : (cut code).halted = none)
    (nothingLeft : (cut code).leftover = []) (more : List Char) :
    cut (code ++ ' ' :: more) = (cut code).append (cut more) := by
  have blankWord : isWordChar ' ' = false := by decide
  fun_induction cut code with
  | case1 code text empty =>
      rw [← cut_skipBlanks, skipBlanks_append_of_nil empty, skipBlanks_cons_space, cut_skipBlanks]
      rfl
  | case2 code text solid starts fault failed => cases complete
  | case3 code text solid starts block rest found ih =>
      have skipped : skipBlanks (code ++ ' ' :: more) = text ++ ' ' :: more :=
        dropWhile_append_of_ne_nil solid _
      rw [cut_of_loopBlock (by simp [skipped])
        (by rw [skipped, startsLoop_append_cons _ _ blankWord, starts])
        (by rw [skipped, loopBlock_append found]), ih complete nothingLeft]
      rfl
  | case4 code text solid simple failed => exact absurd nothingLeft solid
  | case5 code text solid simple statement rest found ih =>
      have skipped : skipBlanks (code ++ ' ' :: more) = text ++ ' ' :: more :=
        dropWhile_append_of_ne_nil solid _
      rw [cut_of_throughSemicolon (by simp [skipped])
        (by rw [skipped, startsLoop_append_cons _ _ blankWord]; simpa using simple)
        (by rw [skipped, throughSemicolon_append found]), ih complete nothingLeft]
      rfl

end SceneScript.Script
