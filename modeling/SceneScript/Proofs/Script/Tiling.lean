import SceneScript.Proofs.Script.Piece

/-!
# A script is tiled by its pieces

Cutting loses nothing and invents nothing. A text is laid out in the pieces that are cut
from it, with ASCII blanks in front of each piece and in front of what is left. Pieces have one
of two forms, and what is left says why cutting ended: the text is used up, or no semicolon
follows, or a loop follows that is not complete. No other layout of a text has these properties.
-/

set_option autoImplicit false

namespace SceneScript.Script

open SceneScript.Text

/-! ## The two forms of a piece -/

/-- A simple piece has its only semicolon at its end. A loop goes through the brace that
closes its body. -/
def Piece.IsUnit : Piece → Prop
  | .simple text => startsLoop text = false ∧ ∃ body, text = body ++ [';'] ∧ ';' ∉ body
  | .loop text => ∃ gap header blanks body, LoopShape text gap header blanks body

theorem not_mem_takeWhile (c : Char) (text : List Char) : c ∉ text.takeWhile (· ≠ c) := by
  intro member
  simpa using List.mem_takeWhile_imp member

theorem throughSemicolon_eq_none_iff {text : List Char} :
    throughSemicolon text = none ↔ ';' ∉ text := by
  unfold throughSemicolon
  split
  · rename_i dropped
    simp only [true_iff]
    intro member
    simpa using List.dropWhile_eq_nil_iff.mp dropped ';' member
  · rename_i semicolon rest dropped
    simp only [reduceCtorEq, false_iff, not_not]
    have inside : semicolon ∈ text :=
      (List.dropWhile_suffix _).subset (dropped ▸ List.mem_cons_self)
    exact eq_of_dropWhile_eq_cons dropped ▸ inside

theorem isUnit_of_throughSemicolon {text statement rest : List Char}
    (simple : startsLoop text = false) (found : throughSemicolon text = some (statement, rest)) :
    (Piece.simple statement).IsUnit := by
  have whole := append_of_throughSemicolon found
  unfold throughSemicolon at found
  split at found
  · cases found
  · rename_i semicolon after dropped
    cases found
    cases eq_of_dropWhile_eq_cons dropped
    refine ⟨?_, _, rfl, not_mem_takeWhile ';' text⟩
    have ends : isWordChar ';' = false := rfl
    rw [← whole, List.append_assoc, List.singleton_append,
      startsLoop_append_cons _ _ ends] at simple
    rw [startsLoop_append_cons _ _ ends]
    exact simple

section
variable {text gap header blanks body : List Char} (loop : LoopShape text gap header blanks body)
include loop

theorem LoopShape.append_eq (more : List Char) : text ++ more =
    loopKeyword ++ gap ++ '(' :: (header ++ ')' :: (blanks ++ '{' :: (body ++ '}' :: more))) := by
  simp only [loop.shape, List.append_assoc, List.cons_append, List.nil_append]

theorem LoopShape.startsLoop_append (more : List Char) : startsLoop (text ++ more) = true := by
  have starts := loop.keyword
  have ends : isWordChar '(' = false := rfl
  rw [← List.append_nil text, loop.append_eq, startsLoop_append_cons _ _ ends] at starts
  rw [loop.append_eq, startsLoop_append_cons _ _ ends]
  exact starts

/-- Whatever follows a complete loop, cutting finds its end. -/
theorem LoopShape.loopBlock_append (more : List Char) :
    loopBlock (text ++ more) = .ok (text, more) := by
  have noParenthesis : ∀ c ∈ loopKeyword ++ gap, decide (c ≠ '(') = true := by
    intro c member
    rcases List.mem_append.mp member with inKeyword | inGap
    · exact List.all_eq_true.mp (by decide : loopKeyword.all (· ≠ '(') = true) c inKeyword
    · exact decide_eq_true fun same => loop.firstParenthesis (same ▸ inGap)
  have headerFound := loop.header.balanced? (by decide) (blanks ++ '{' :: (body ++ '}' :: more))
  have bodyFound := loop.body.balanced? (by decide) more
  simp only [loop.append_eq, loopBlock, takeWhile_append_cons noParenthesis (d := '(') rfl,
    dropWhile_append_cons noParenthesis (d := '(') rfl, headerFound, skipBlanks,
    takeWhile_append_cons loop.blanks (d := '{') rfl,
    dropWhile_append_cons loop.blanks (d := '{') rfl, bodyFound]
  simp [loop.shape]

end

theorem isUnit_of_loopBlock {text block rest : List Char} (starts : startsLoop text = true)
    (found : loopBlock text = .ok (block, rest)) : (Piece.loop block).IsUnit :=
  (CutsOff.loop starts found).exists_loopShape

/-- Cutting misses no complete loop. -/
theorem exists_loopBlock_error_iff {text : List Char} (starts : startsLoop text = true) :
    (∃ fault, loopBlock text = .error fault) ↔
      ∀ part, part <+: text → ¬ (Piece.loop part).IsUnit := by
  constructor
  · intro ⟨fault, failed⟩ part begins ⟨gap, header, blanks, body, loop⟩
    obtain ⟨more, rfl⟩ := begins
    rw [loop.loopBlock_append] at failed
    cases failed
  · intro incomplete
    cases result : loopBlock text with
    | error fault => exact ⟨fault, rfl⟩
    | ok found =>
        have begins : found.1 <+: text := ⟨found.2, append_of_loopBlock result⟩
        exact absurd (isUnit_of_loopBlock starts result) (incomplete found.1 begins)

/-! ## Layouts -/

/-- The text is laid out in pieces: ASCII blanks stand in front of each piece and in front
of the rest, and neither a piece nor the rest begins with one. -/
inductive Tiles : List Char → List Piece → List Char → Prop where
  | rest {blanks rest : List Char} :
      (∀ c ∈ blanks, isAsciiBlank c = true) → skipBlanks rest = rest →
      Tiles (blanks ++ rest) [] rest
  | next {blanks more rest : List Char} {piece : Piece} {pieces : List Piece} :
      (∀ c ∈ blanks, isAsciiBlank c = true) → skipBlanks piece.text = piece.text → piece.IsUnit →
      Tiles more pieces rest → Tiles (blanks ++ (piece.text ++ more)) (piece :: pieces) rest

/-- Why cutting ends in front of a text, without a fault or with one. -/
def EndsCutting (rest : List Char) : Option CutFault → Prop
  | none => rest = [] ∨ startsLoop rest = false ∧ ';' ∉ rest
  | some _ => startsLoop rest = true ∧ ∀ part, part <+: rest → ¬ (Piece.loop part).IsUnit

theorem tiles_skipBlanks (code : List Char) : Tiles code [] (skipBlanks code) := by
  have blank : ∀ c ∈ code.takeWhile isAsciiBlank, isAsciiBlank c = true :=
    fun c => List.mem_takeWhile_imp
  simpa only [takeWhile_append_skipBlanks] using Tiles.rest blank (skipBlanks_idem code)

theorem Tiles.cons {code more rest : List Char} {piece : Piece} {pieces : List Piece}
    (begins : piece.text ++ more = skipBlanks code) (unit : piece.IsUnit)
    (tiled : Tiles more pieces rest) : Tiles code (piece :: pieces) rest := by
  have blank : ∀ c ∈ code.takeWhile isAsciiBlank, isAsciiBlank c = true :=
    fun c => List.mem_takeWhile_imp
  have solid : skipBlanks piece.text = piece.text := skipBlanks_of_isPrefix ⟨more, begins⟩
  simpa only [begins, takeWhile_append_skipBlanks] using Tiles.next blank solid unit tiled

theorem tiles_cut (code : List Char) : Tiles code (cut code).pieces (cut code).leftover := by
  fun_induction cut code with
  | case1 code text empty => exact empty ▸ tiles_skipBlanks code
  | case2 code text solid starts fault failed => exact tiles_skipBlanks code
  | case3 code text solid starts block rest found tiled =>
      exact .cons (append_of_loopBlock found) (isUnit_of_loopBlock starts found) tiled
  | case4 code text solid simple failed => exact tiles_skipBlanks code
  | case5 code text solid simple statement rest found tiled =>
      have unit := isUnit_of_throughSemicolon (Bool.eq_false_iff.mpr simple) found
      exact .cons (append_of_throughSemicolon found) unit tiled

theorem endsCutting_cut (code : List Char) :
    EndsCutting (cut code).leftover (cut code).halted := by
  fun_induction cut code with
  | case1 code text empty => exact .inl rfl
  | case2 code text solid starts fault failed =>
      exact ⟨starts, (exists_loopBlock_error_iff starts).mp ⟨fault, failed⟩⟩
  | case3 code text solid starts block rest found ends => exact ends
  | case4 code text solid simple failed =>
      exact .inr ⟨Bool.eq_false_iff.mpr simple, throughSemicolon_eq_none_iff.mp failed⟩
  | case5 code text solid simple statement rest found ends => exact ends

/-! ## No other layout -/

theorem Piece.IsUnit.text_ne_nil {piece : Piece} (unit : piece.IsUnit) : piece.text ≠ [] := by
  cases piece with
  | simple text =>
      obtain ⟨-, body, rfl, -⟩ := unit
      simp [Piece.text]
  | loop text =>
      obtain ⟨gap, header, blanks, body, loop⟩ := unit
      simp [Piece.text, loop.shape, loopKeyword]

theorem Piece.IsUnit.skipBlanks_append {piece : Piece} (unit : piece.IsUnit)
    (solid : skipBlanks piece.text = piece.text) (more : List Char) :
    skipBlanks (piece.text ++ more) = piece.text ++ more := by
  have filled : skipBlanks piece.text ≠ [] := solid.symm ▸ unit.text_ne_nil
  have kept := dropWhile_append_of_ne_nil filled more
  rwa [← skipBlanks, ← skipBlanks, solid] at kept

theorem Piece.IsUnit.cut_append {piece : Piece} (unit : piece.IsUnit)
    (solid : skipBlanks piece.text = piece.text) (more : List Char) :
    cut (piece.text ++ more) = (cut more).push piece := by
  have begins := unit.skipBlanks_append solid more
  have filled : piece.text ++ more ≠ [] := by simp [unit.text_ne_nil]
  cases piece with
  | simple text =>
      obtain ⟨simple, body, rfl, noSemicolon⟩ := unit
      have whole : body ++ [';'] ++ more = body ++ ';' :: more := List.append_cons _ _ _ |>.symm
      have ends : isWordChar ';' = false := rfl
      refine cut_of_throughSemicolon (begins.symm ▸ filled) ?_ ?_
      · rw [begins, Piece.text, whole, startsLoop_append_cons _ _ ends]
        rwa [startsLoop_append_cons _ _ ends] at simple
      · rw [begins, Piece.text, whole, throughSemicolon_of_not_mem noSemicolon]
  | loop text =>
      obtain ⟨gap, header, blanks, body, loop⟩ := unit
      refine cut_of_loopBlock (begins.symm ▸ filled) ?_ ?_
      · rw [begins]
        exact loop.startsLoop_append more
      · rw [begins]
        exact loop.loopBlock_append more

theorem cut_of_endsCutting {rest : List Char} {halted : Option CutFault}
    (solid : skipBlanks rest = rest) (ends : EndsCutting rest halted) :
    (cut rest).pieces = [] ∧ (cut rest).leftover = rest := by
  by_cases empty : rest = []
  · have nothing := cut_of_skipBlanks_nil (solid.trans empty)
    exact ⟨by rw [nothing], by rw [nothing, empty]⟩
  have filled : skipBlanks rest ≠ [] := solid.symm ▸ empty
  cases halted with
  | none =>
      obtain ⟨simple, noSemicolon⟩ := ends.resolve_left empty
      have failed := throughSemicolon_eq_none_iff.mpr noSemicolon
      rw [← solid] at simple failed
      have stopped := cut_of_no_semicolon filled simple failed
      exact ⟨by rw [stopped], by rw [stopped, solid]⟩
  | some fault =>
      obtain ⟨starts, incomplete⟩ := ends
      obtain ⟨reason, failed⟩ := (exists_loopBlock_error_iff starts).mpr incomplete
      rw [← solid] at starts failed
      have stopped := cut_of_incomplete_loop filled starts failed
      exact ⟨by rw [stopped], by rw [stopped, solid]⟩

theorem Tiles.cut_eq {code rest : List Char} {pieces : List Piece} (tiled : Tiles code pieces rest)
    {halted : Option CutFault} (ends : EndsCutting rest halted) :
    (cut code).pieces = pieces ∧ (cut code).leftover = rest := by
  induction tiled with
  | @rest blanks rest blank solid =>
      rw [← cut_skipBlanks, skipBlanks_append blank solid]
      exact cut_of_endsCutting solid ends
  | @next blanks more rest piece pieces blank solid unit _ ih =>
      obtain ⟨samePieces, sameRest⟩ := ih ends
      rw [← cut_skipBlanks, skipBlanks_append blank (unit.skipBlanks_append solid more),
        unit.cut_append solid]
      exact ⟨congrArg (piece :: ·) samePieces, sameRest⟩

/-- Every text is laid out in the pieces that are cut from it, and the statements are these
pieces, trimmed. Cutting without a fault ends with nothing left, or in front of a text that
is no loop and has no semicolon. Cutting with a fault, which is structural, ends in front of a
loop that is complete nowhere. There is no other layout of the text that ends like this. -/
theorem cut_is_the_layout (code : List Char) :
    Tiles code (cut code).pieces (cut code).leftover ∧
    (cut code).statements = (cut code).pieces.map (fun piece => trim piece.text) ∧
    ((cut code).halted = none →
      (cut code).leftover = [] ∨
        startsLoop (cut code).leftover = false ∧ ';' ∉ (cut code).leftover) ∧
    (∀ fault, (cut code).halted = some fault →
      (Fault.cut fault).kind = .structural ∧ startsLoop (cut code).leftover = true ∧
        ∀ part, part <+: (cut code).leftover → ¬ (Piece.loop part).IsUnit) ∧
    ∀ pieces rest halted, Tiles code pieces rest → EndsCutting rest halted →
      (cut code).pieces = pieces ∧ (cut code).leftover = rest := by
  have ends := endsCutting_cut code
  refine ⟨tiles_cut code, rfl, fun complete => ?_, fun fault failed => ?_,
    fun pieces rest halted tiled ends => tiled.cut_eq ends⟩
  · rw [complete] at ends
    exact ends
  · rw [failed] at ends
    exact ⟨rfl, ends⟩

end SceneScript.Script
