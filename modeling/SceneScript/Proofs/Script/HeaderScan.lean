import SceneScript.Proofs.Offset.Loop
import SceneScript.Proofs.Script.Header

/-!
# The scan of a loop header

A header is divided in one pass: the scan keeps the parts that are finished, the part
that it is in, and the depth of parentheses. On any text the depth may fall below zero;
on the header of a loop it cannot, since the parentheses around the header match. Hence
every part is balanced on its own, and a semicolon that is left in a part stands inside
parentheses.
-/

set_option autoImplicit false

namespace SceneScript.Script

open SceneScript.Text

/-! ## The state of the scan -/

/-- A header read up to some place. -/
structure HeaderScan where
  finished : List (List Char)
  current : List Char
  depth : Int

namespace HeaderScan

def start : HeaderScan :=
  ⟨[], [], 0⟩

def read (scan : HeaderScan) (c : Char) : HeaderScan :=
  if c = ';' ∧ scan.depth = 0 then
    { scan with finished := scan.finished ++ [scan.current], current := [] }
  else { scan with current := scan.current ++ [c], depth := scan.depth + depthStep c }

/-- The scan when it has read a text. -/
def behind (text : List Char) : HeaderScan :=
  text.foldl read start

/-- The parts of a header of which `rest` is still to be read. -/
def resume (scan : HeaderScan) (rest : List Char) : List (List Char) :=
  scan.finished ++ scan.current.foldr consFirst (headerPartsFrom scan.depth rest)

theorem depth_read (scan : HeaderScan) (c : Char) :
    (scan.read c).depth = scan.depth + depthStep c := by
  unfold read
  split
  · rename_i separates
    rw [separates.1]
    exact (Int.add_zero scan.depth).symm
  · rfl

theorem resume_cons (scan : HeaderScan) (c : Char) (rest : List Char) :
    scan.resume (c :: rest) = (scan.read c).resume rest := by
  unfold resume
  rw [headerPartsFrom]
  by_cases separates : c = ';' ∧ scan.depth = 0
  · simp only [read, if_pos separates, List.foldr_nil, Offset.foldr_consFirst_nil_cons,
      List.append_assoc, List.singleton_append]
  · simp only [read, if_neg separates, List.foldr_append, List.foldr_cons, List.foldr_nil]

theorem depth_foldl_read (scan : HeaderScan) (text : List Char) :
    (text.foldl read scan).depth = depthAfter scan.depth text := by
  induction text generalizing scan with
  | nil => exact (depthAfter_nil scan.depth).symm
  | cons c text ih => rw [List.foldl_cons, ih, depth_read, depthAfter_cons]

theorem resume_append (scan : HeaderScan) (text rest : List Char) :
    scan.resume (text ++ rest) = (text.foldl read scan).resume rest := by
  induction text generalizing scan with
  | nil => rfl
  | cons c text ih => rw [List.cons_append, resume_cons, ih, List.foldl_cons]

theorem depth_behind (text : List Char) : (behind text).depth = depthAfter 0 text :=
  depth_foldl_read start text

theorem headerParts_append (before after : List Char) :
    headerParts (before ++ after) = (behind before).resume after :=
  resume_append start before after

end HeaderScan

/-! ## The parts of a balanced header -/

theorem Division.ne_nil {header : List Char} {parts : List (List Char)}
    (division : Division header parts) : parts ≠ [] := by
  cases division with
  | last _ => exact List.cons_ne_nil _ _
  | next _ _ _ => exact List.cons_ne_nil _ _

theorem Division.intercalate_eq {header : List Char} {parts : List (List Char)}
    (division : Division header parts) : [';'].intercalate parts = header := by
  induction division with
  | last _ => exact List.intercalate_singleton
  | next _ _ others ih =>
      rw [List.intercalate_cons_of_ne_nil others.ne_nil, ih, List.append_assoc,
        List.singleton_append]

theorem Division.enclosesSemicolons {header : List Char} {parts : List (List Char)}
    (division : Division header parts) : ∀ part ∈ parts, EnclosesSemicolons 0 part := by
  induction division with
  | last encloses => exact List.forall_mem_singleton.mpr encloses
  | next encloses _ _ ih => exact List.forall_mem_cons.mpr ⟨encloses, ih⟩

/-- A part in front of a semicolon outside parentheses closes what it opens, so what
follows the semicolon is balanced as well. -/
theorem Division.isBalanced {header : List Char} {parts : List (List Char)}
    (division : Division header parts) (balanced : IsBalanced '(' ')' header) :
    ∀ part ∈ parts, IsBalanced '(' ')' part := by
  induction division with
  | last _ => exact List.forall_mem_singleton.mpr balanced
  | @next part rest parts _ even _ ih =>
      obtain ⟨first, behind⟩ := balanced.of_append even.symm
      have separated : IsBalanced '(' ')' ([';'] ++ rest) := behind
      obtain ⟨_, others⟩ := separated.of_append rfl
      exact List.forall_mem_cons.mpr ⟨first, ih others⟩

theorem EnclosesSemicolons.count_lt {part before after : List Char}
    (encloses : EnclosesSemicolons 0 part) (balanced : IsBalanced '(' ')' part)
    (shape : part = before ++ ';' :: after) : before.count ')' < before.count '(' := by
  have level := encloses before after shape
  have stretch := balanced.stretch before.length
  rw [shape, List.take_left] at stretch
  rw [depthAfter] at level
  omega

theorem depthAfter_nonneg {before after : List Char}
    (balanced : IsBalanced '(' ')' (before ++ after)) : 0 ≤ depthAfter 0 before := by
  have stretch := balanced.stretch before.length
  rw [List.take_left] at stretch
  rw [depthAfter]
  omega

theorem depthAfter_eq_zero {header : List Char} (balanced : IsBalanced '(' ')' header) :
    depthAfter 0 header = 0 := by
  have whole := balanced.whole
  rw [depthAfter]
  omega

theorem isBalanced_interior {text block rest : List Char}
    (found : balanced? '(' ')' text = some (block, rest)) :
    IsBalanced '(' ')' (interior block) := by
  obtain ⟨header, balanced, rfl, _⟩ := (balanced?_eq_some_iff (by decide)).mp found
  rwa [interior, List.tail_cons, List.dropLast_concat]

/-- If a statement has a header between matching parentheses, the parts of the header
joined by semicolons are the header. Each part is balanced, and a semicolon that is left
in a part stands inside parentheses. Wherever the scan stands in the header, its depth is
not negative, and at the end it is zero. It fits into 32 bits if the header is not too
long. -/
theorem headerParts_of_matching_header {statement block afterHeader : List Char}
    (found : balanced? '(' ')' (skipBlanks (statement.drop loopKeyword.length)) =
      some (block, afterHeader)) :
    let header := interior block
    [';'].intercalate (headerParts header) = header ∧
    (∀ part ∈ headerParts header, IsBalanced '(' ')' part ∧
      ∀ before after, part = before ++ ';' :: after → before.count ')' < before.count '(') ∧
    (∀ before after, header = before ++ after →
      headerParts header = (HeaderScan.behind before).resume after ∧
        0 ≤ (HeaderScan.behind before).depth) ∧
    (HeaderScan.behind header).depth = 0 ∧
    (Offset.size header < 2147483648 → Offset.headerParts header = .ok (headerParts header)) := by
  intro header
  have balanced : IsBalanced '(' ')' header := isBalanced_interior found
  have division : Division header (headerParts header) := division_headerParts header
  refine ⟨division.intercalate_eq, fun part member => ?_, fun before after shape => ⟨?_, ?_⟩, ?_,
    Offset.headerParts_of_short⟩
  · have inPart := division.isBalanced balanced part member
    have encloses := division.enclosesSemicolons part member
    exact ⟨inPart, fun before after => encloses.count_lt inPart⟩
  · rw [shape, HeaderScan.headerParts_append]
  · rw [HeaderScan.depth_behind]
    rw [shape] at balanced
    exact depthAfter_nonneg balanced
  · rw [HeaderScan.depth_behind]
    exact depthAfter_eq_zero balanced

/-- A header with a semicolon inside parentheses, and with parentheses in every part. -/
theorem headerParts_of_matching_header_of_enclosed_semicolon :
    let statement := "for (i = f((a;b)); (i < 2)\u00a0; i = (i) + 1) \x7b\x7d".toList
    let header := "i = f((a;b)); (i < 2)\u00a0; i = (i) + 1".toList
    let parts := ["i = f((a;b))".toList, " (i < 2)\u00a0".toList, " i = (i) + 1".toList]
    balanced? '(' ')' (skipBlanks (statement.drop loopKeyword.length)) =
        some ('(' :: (header ++ [')']), " \x7b\x7d".toList) ∧
      headerParts header = parts ∧ [';'].intercalate parts = header ∧
      (∀ part ∈ parts, IsBalanced '(' ')' part) ∧
      0 ≤ (HeaderScan.behind "i = f((a;b)".toList).depth ∧
      (HeaderScan.behind header).depth = 0 ∧ Offset.headerParts header = .ok parts := by
  intro statement header parts
  have found : balanced? '(' ')' (skipBlanks (statement.drop loopKeyword.length)) =
      some ('(' :: (header ++ [')']), " \x7b\x7d".toList) := by decide +kernel
  have divided : headerParts header = parts := by decide +kernel
  obtain ⟨joined, balanced, depth, final, fits⟩ := headerParts_of_matching_header found
  have inside : interior ('(' :: (header ++ [')'])) = header := by decide +kernel
  rw [inside] at joined balanced depth final fits
  rw [divided] at joined balanced fits
  have midway : header = "i = f((a;b)".toList ++ "); (i < 2)\u00a0; i = (i) + 1".toList := by
    decide +kernel
  exact ⟨found, divided, joined, fun part member => (balanced part member).1,
    (depth _ _ midway).2, final, fits (by decide +kernel)⟩

end SceneScript.Script
