import SceneScript.Script.Header

/-!
# What the parts of a loop header are

A semicolon stands outside parentheses if as many parentheses are closed as are opened
before it. `Division` says which parts a header has, by these semicolons alone; the
scan that divides a header finds exactly these parts.
-/

set_option autoImplicit false

namespace SceneScript.Script

/-- The depth of parentheses behind a text that starts at the given depth. -/
def depthAfter (depth : Int) (text : List Char) : Int :=
  depth + text.count '(' - text.count ')'

theorem depthAfter_nil (depth : Int) : depthAfter depth [] = depth := by
  simp [depthAfter]

theorem depthAfter_cons (depth : Int) (c : Char) (text : List Char) :
    depthAfter depth (c :: text) = depthAfter (depth + depthStep c) text := by
  grind [depthAfter, depthStep]

/-- Every semicolon of the text stands inside parentheses, when the text starts at the
given depth. -/
def EnclosesSemicolons (depth : Int) (text : List Char) : Prop :=
  ∀ before after, text = before ++ ';' :: after → depthAfter depth before ≠ 0

/-- A header divided at its semicolons outside parentheses. -/
inductive Division : List Char → List (List Char) → Prop where
  | last {part : List Char} : EnclosesSemicolons 0 part → Division part [part]
  | next {part rest : List Char} {parts : List (List Char)} :
      EnclosesSemicolons 0 part → part.count '(' = part.count ')' → Division rest parts →
      Division (part ++ ';' :: rest) (part :: parts)

theorem enclosesSemicolons_of_not_mem {text : List Char} (none : ';' ∉ text) (depth : Int) :
    EnclosesSemicolons depth text := by
  rintro before after rfl
  exact absurd (List.mem_append_right before List.mem_cons_self) none

theorem enclosesSemicolons_cons_iff {depth : Int} {c : Char} {text : List Char} :
    EnclosesSemicolons depth (c :: text) ↔
      ¬ (c = ';' ∧ depth = 0) ∧ EnclosesSemicolons (depth + depthStep c) text := by
  constructor
  · intro encloses
    refine ⟨?_, fun before after shape => ?_⟩
    · rintro ⟨rfl, rfl⟩
      exact encloses [] text rfl (depthAfter_nil 0)
    · rw [← depthAfter_cons]
      exact encloses (c :: before) after (by rw [shape, List.cons_append])
  · rintro ⟨notHere, encloses⟩ before after shape level
    cases before with
    | nil =>
        rw [List.nil_append, List.cons.injEq] at shape
        exact notHere ⟨shape.1, by rwa [depthAfter_nil] at level⟩
    | cons d before =>
        rw [List.cons_append, List.cons.injEq] at shape
        obtain ⟨rfl, shape⟩ := shape
        rw [depthAfter_cons] at level
        exact encloses before after shape level

/-! ## The scan -/

theorem headerPartsFrom_last {depth : Int} {part : List Char}
    (encloses : EnclosesSemicolons depth part) : headerPartsFrom depth part = [part] := by
  induction part generalizing depth with
  | nil => rfl
  | cons c part ih =>
      obtain ⟨notHere, inner⟩ := enclosesSemicolons_cons_iff.mp encloses
      rw [headerPartsFrom, if_neg notHere, ih inner, consFirst]

/-- A part ends at the first semicolon where the depth of parentheses is back at zero. -/
theorem headerPartsFrom_append_semicolon {depth : Int} {part : List Char}
    (encloses : EnclosesSemicolons depth part) (level : depthAfter depth part = 0)
    (rest : List Char) :
    headerPartsFrom depth (part ++ ';' :: rest) = part :: headerPartsFrom 0 rest := by
  induction part generalizing depth with
  | nil =>
      rw [depthAfter_nil] at level
      rw [level, List.nil_append, headerPartsFrom, if_pos ⟨rfl, rfl⟩]
  | cons c part ih =>
      obtain ⟨notHere, inner⟩ := enclosesSemicolons_cons_iff.mp encloses
      rw [depthAfter_cons] at level
      rw [List.cons_append, headerPartsFrom, if_neg notHere, ih inner level, consFirst]

theorem enclosesSemicolons_or_exists (depth : Int) (text : List Char) :
    EnclosesSemicolons depth text ∨
      ∃ part rest, text = part ++ ';' :: rest ∧ EnclosesSemicolons depth part ∧
        depthAfter depth part = 0 := by
  induction text generalizing depth with
  | nil => exact .inl (enclosesSemicolons_of_not_mem List.not_mem_nil depth)
  | cons c text ih =>
      by_cases here : c = ';' ∧ depth = 0
      · obtain ⟨rfl, rfl⟩ := here
        exact .inr ⟨[], text, rfl, enclosesSemicolons_of_not_mem List.not_mem_nil 0,
          depthAfter_nil 0⟩
      rcases ih (depth + depthStep c) with encloses | ⟨part, rest, rfl, encloses, level⟩
      · exact .inl (enclosesSemicolons_cons_iff.mpr ⟨here, encloses⟩)
      · refine .inr ⟨c :: part, rest, rfl, enclosesSemicolons_cons_iff.mpr ⟨here, encloses⟩, ?_⟩
        rw [depthAfter_cons, level]

theorem Division.headerParts_eq {header : List Char} {parts : List (List Char)}
    (division : Division header parts) : headerParts header = parts := by
  induction division with
  | last encloses => exact headerPartsFrom_last encloses
  | next encloses level _ ih =>
      rw [headerParts, headerPartsFrom_append_semicolon encloses (by simp [depthAfter, level]),
        ← headerParts, ih]

theorem division_headerParts (header : List Char) : Division header (headerParts header) := by
  induction length : header.length using Nat.strongRecOn generalizing header with
  | ind size ih =>
      rcases enclosesSemicolons_or_exists 0 header with
        encloses | ⟨part, rest, rfl, encloses, level⟩
      · rw [headerParts, headerPartsFrom_last encloses]
        exact .last encloses
      · rw [List.length_append, List.length_cons] at length
        rw [headerParts, headerPartsFrom_append_semicolon encloses level, ← headerParts]
        refine .next encloses ?_ (ih rest.length (by omega) rest rfl)
        rw [depthAfter] at level
        omega

theorem headerParts_eq_iff {header : List Char} {parts : List (List Char)} :
    headerParts header = parts ↔ Division header parts := by
  constructor
  · rintro rfl
    exact division_headerParts header
  · exact Division.headerParts_eq

theorem Division.subset {header part : List Char} {parts : List (List Char)}
    (division : Division header parts) (member : part ∈ parts) : part ⊆ header := by
  induction division with
  | last _ =>
      cases List.mem_singleton.mp member
      exact List.Subset.refl _
  | @next first rest others _ _ _ ih =>
      obtain rfl | later := List.mem_cons.mp member
      · exact List.subset_append_left part _
      · intro c inside
        exact List.mem_append_right first (List.mem_cons_of_mem ';' (ih later inside))

end SceneScript.Script
