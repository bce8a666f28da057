import SceneScript.Proofs.Script.Cut
import SceneScript.Proofs.Script.Normal
import SceneScript.Script.Program

/-!
# Blocks behind each other

If a block is cut to its end, a block on the lines behind it is read as if it stood
alone. Only the order of the faults is different: the fault that ends the cutting of
the second block comes before all faults of the first.
-/

set_option autoImplicit false

namespace SceneScript.Script

/-- The block is cut to its end: no loop is incomplete, and no text without a
semicolon is left. -/
structure CutsToEnd (source : List Char) : Prop where
  complete : (cut (normalize source)).halted = none
  nothingLeft : (cut (normalize source)).leftover = []

theorem cut_nil : cut [] = ⟨[], [], none⟩ :=
  cut_of_skipBlanks_nil rfl

theorem Cut.append_cut_nil {first : Cut} (complete : first.halted = none)
    (nothingLeft : first.leftover = []) : first.append (cut []) = first := by
  rw [cut_nil, Cut.append, List.append_nil]
  cases first with
  | mk pieces leftover halted =>
      cases complete
      cases nothingLeft
      rfl

theorem CutsToEnd.cut_append {first : List Char} (ends : CutsToEnd first)
    (second : List Char) :
    cut (normalize (first ++ '\n' :: second)) =
      (cut (normalize first)).append (cut (normalize second)) := by
  by_cases firstEmpty : normalize first = []
  · rw [normalize_append_lineFeed_of_left_nil firstEmpty, firstEmpty, cut_nil]
    rfl
  by_cases secondEmpty : normalize second = []
  · rw [normalize_append_lineFeed_of_right_nil secondEmpty, secondEmpty,
      Cut.append_cut_nil ends.complete ends.nothingLeft]
  · rw [normalize_append_lineFeed firstEmpty secondEmpty,
      cut_append_space ends.complete ends.nothingLeft]

/-- The fault that ended the cutting of a block, if there is one. -/
def cutFault? (source : List Char) : Option Fault :=
  (cut (normalize source)).halted.map Fault.cut

/-- The faults of the statements of a block. -/
def statementFaults (readBody : Option (List Char → Program)) (code : List Char) :
    List Fault :=
  ((cut (normalize code)).statements.map (readStatementWith readBody)).flatMap
    StatementResult.faults

section
variable (readBody : Option (List Char → Program)) {first : List Char}

theorem faults_readBlockWith (code : List Char) :
    (readBlockWith readBody code).faults =
      (cutFault? code).toList ++ statementFaults readBody code := rfl

theorem CutsToEnd.commands_append (ends : CutsToEnd first) (second : List Char) :
    (readBlockWith readBody (first ++ '\n' :: second)).commands =
      (readBlockWith readBody first).commands ++ (readBlockWith readBody second).commands := by
  simp only [readBlockWith, ends.cut_append second, Cut.statements, Cut.append, List.map_append,
    List.filterMap_append]

theorem CutsToEnd.faults_append (ends : CutsToEnd first) (second : List Char) :
    (readBlockWith readBody (first ++ '\n' :: second)).faults =
      (cutFault? second).toList ++ (readBlockWith readBody first).faults ++
        statementFaults readBody second := by
  have noCutFault : (readBlockWith readBody first).faults = statementFaults readBody first := by
    rw [faults_readBlockWith, cutFault?, ends.complete]
    rfl
  rw [noCutFault, faults_readBlockWith, cutFault?, statementFaults, ends.cut_append second]
  simp only [Cut.statements, Cut.append, List.map_append, List.flatMap_append, List.append_assoc]
  rfl

end

end SceneScript.Script
