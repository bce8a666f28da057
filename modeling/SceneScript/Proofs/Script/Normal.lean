import SceneScript.Proofs.Text.Blank
import SceneScript.Proofs.Text.Word
import SceneScript.Script.Normal

/-!
# Normal forms

A text in normal form has no line ends and no comments. Bringing a text without
these to normal form only trims it, so for a piece of a normal form nothing else
happens. A line end divides a text into parts that are brought to normal form one by
one and joined with one space.
-/

set_option autoImplicit false

namespace SceneScript.Script

open SceneScript.Text

/-! ## Comments -/

/-- The mark that begins a comment. -/
def commentMark : List Char := ['/', '/']

theorem commentMark_infix_cons_iff {c : Char} (other : c ≠ '/') {text : List Char} :
    commentMark <:+: c :: text ↔ commentMark <:+: text := by
  rw [List.infix_cons_iff]
  constructor
  · rintro (start | inside)
    · rw [commentMark, List.cons_prefix_cons] at start
      exact absurd start.1.symm other
    · exact inside
  · exact Or.inr

theorem commentMark_infix_append_cons_iff {c : Char} (other : c ≠ '/') {left right : List Char} :
    commentMark <:+: left ++ c :: right ↔ commentMark <:+: left ∨ commentMark <:+: right := by
  induction left with
  | nil =>
      have empty : ¬ commentMark <:+: [] := by simp [commentMark]
      rw [List.nil_append, commentMark_infix_cons_iff other, or_iff_right empty]
  | cons d left ih =>
      have start : commentMark <+: d :: (left ++ c :: right) ↔ commentMark <+: d :: left := by
        cases left with
        | nil => simp [commentMark, other.symm]
        | cons e left => simp [commentMark, List.cons_prefix_cons]
      rw [List.cons_append, List.infix_cons_iff, List.infix_cons_iff, ih, start, or_assoc]

theorem beforeComment_begins (text : List Char) : beforeComment text <+: text := by
  fun_induction beforeComment text with
  | case1 => exact List.nil_prefix
  | case2 c rest _ ih => exact List.cons_prefix_cons.mpr ⟨rfl, ih⟩
  | case3 => exact List.nil_prefix

theorem not_commentMark_infix_beforeComment (text : List Char) :
    ¬ commentMark <:+: beforeComment text := by
  fun_induction beforeComment text with
  | case1 => simp [commentMark]
  | case2 c rest noMark ih =>
      intro found
      rcases List.infix_cons_iff.mp found with start | inside
      · -- A mark at the start would have ended the line there.
        rw [commentMark, List.cons_prefix_cons] at start
        obtain ⟨rfl, start⟩ := start
        obtain ⟨more, rfl⟩ := start.trans (beforeComment_begins rest)
        exact noMark more rfl rfl
      · exact ih inside
  | case3 => simp [commentMark]

theorem beforeComment_eq_self {text : List Char} (none : ¬ commentMark <:+: text) :
    beforeComment text = text := by
  fun_induction beforeComment text with
  | case1 rest => exact absurd (List.prefix_append commentMark rest).isInfix none
  | case2 c rest _ ih =>
      rw [ih fun inside => none (List.infix_cons_iff.mpr (.inr inside))]
  | case3 => rfl

/-! ## Lines -/

theorem codeLines_append_lineFeed (left right : List Char) :
    codeLines (left ++ '\n' :: right) = codeLines left ++ codeLines right := by
  rw [codeLines, List.splitOn_append_cons_self, List.map_append, List.filter_append, ← codeLines,
    ← codeLines]

theorem ne_nil_of_mem_codeLines {source line : List Char} (member : line ∈ codeLines source) :
    line ≠ [] := by
  rw [codeLines, List.mem_filter] at member
  simpa using member.2

theorem intercalate_append_of_ne_nil {left right : List (List Char)} (leftLines : left ≠ [])
    (rightLines : right ≠ []) :
    [' '].intercalate (left ++ right) =
      [' '].intercalate left ++ ' ' :: [' '].intercalate right := by
  induction left with
  | nil => exact absurd rfl leftLines
  | cons line left ih =>
      cases left with
      | nil =>
          rw [List.singleton_append, List.intercalate_cons_of_ne_nil rightLines,
            List.intercalate_singleton, List.append_assoc, List.singleton_append]
      | cons next left =>
          rw [List.cons_append, List.intercalate_cons_of_ne_nil (by simp),
            ih (List.cons_ne_nil _ _), List.intercalate_cons_of_ne_nil (List.cons_ne_nil _ _)]
          simp only [List.append_assoc]

theorem normalize_eq_nil_iff {source : List Char} :
    normalize source = [] ↔ codeLines source = [] := by
  constructor
  · intro empty
    cases lines : codeLines source with
    | nil => rfl
    | cons line rest =>
        have solid : line ≠ [] := ne_nil_of_mem_codeLines (lines ▸ List.mem_cons_self)
        rw [normalize, lines] at empty
        cases rest with
        | nil => exact absurd (by simpa using empty) solid
        | cons next rest => simp at empty
  · intro none
    rw [normalize, none]
    rfl

/-! ## Texts on several lines -/

theorem normalize_append_lineFeed {left right : List Char} (leftSolid : normalize left ≠ [])
    (rightSolid : normalize right ≠ []) :
    normalize (left ++ '\n' :: right) = normalize left ++ ' ' :: normalize right := by
  rw [normalize, codeLines_append_lineFeed, intercalate_append_of_ne_nil
    (fun none => leftSolid (normalize_eq_nil_iff.mpr none))
    (fun none => rightSolid (normalize_eq_nil_iff.mpr none)), ← normalize, ← normalize]

theorem normalize_append_lineFeed_of_left_nil {left : List Char} (empty : normalize left = [])
    (right : List Char) : normalize (left ++ '\n' :: right) = normalize right := by
  rw [normalize, codeLines_append_lineFeed, normalize_eq_nil_iff.mp empty, List.nil_append,
    ← normalize]

theorem normalize_append_lineFeed_of_right_nil {right : List Char} (empty : normalize right = [])
    (left : List Char) : normalize (left ++ '\n' :: right) = normalize left := by
  rw [normalize, codeLines_append_lineFeed, normalize_eq_nil_iff.mp empty, List.append_nil,
    ← normalize]

/-- A text that is empty in normal form leaves no trace, not even a space. -/
theorem normalize_append_lineFeed_cases (left right : List Char) :
    normalize (left ++ '\n' :: right) = normalize right ∨
      normalize (left ++ '\n' :: right) = normalize left ∨
      normalize left ≠ [] ∧ normalize right ≠ [] ∧
        normalize (left ++ '\n' :: right) = normalize left ++ ' ' :: normalize right := by
  by_cases leftEmpty : normalize left = []
  · exact .inl (normalize_append_lineFeed_of_left_nil leftEmpty right)
  by_cases rightEmpty : normalize right = []
  · exact .inr (.inl (normalize_append_lineFeed_of_right_nil rightEmpty left))
  · exact .inr (.inr ⟨leftEmpty, rightEmpty, normalize_append_lineFeed leftEmpty rightEmpty⟩)

/-! ## Normal forms -/

theorem normalize_of_one_line {text : List Char} (noLineFeed : '\n' ∉ text) :
    normalize text = trim (beforeComment text) := by
  have lines : codeLines text = [trim (beforeComment text)].filter (· ≠ []) := by
    rw [codeLines, List.splitOn_eq_singleton noLineFeed, List.map_singleton, Function.comp_apply]
  rw [normalize, lines]
  by_cases empty : trim (beforeComment text) = []
  · simp [empty]
  · simp [empty]

/-- A text without line ends and comments. -/
structure IsPlain (text : List Char) : Prop where
  noLineFeed : '\n' ∉ text
  noComment : ¬ commentMark <:+: text

theorem isPlain_nil : IsPlain [] :=
  ⟨List.not_mem_nil, by simp [commentMark]⟩

theorem isPlain_of_word {word : List Char} (all : ∀ c ∈ word, isWordChar c = true) :
    IsPlain word where
  noLineFeed := not_mem_word all (by decide)
  noComment found := not_mem_word all (c := '/') (by decide) (found.subset List.mem_cons_self)

theorem IsPlain.append_cons {left right : List Char} (leftPlain : IsPlain left)
    (rightPlain : IsPlain right) {c : Char} (harmless : c ≠ '\n' ∧ c ≠ '/') :
    IsPlain (left ++ c :: right) where
  noLineFeed := by
    simp only [List.mem_append, List.mem_cons, not_or]
    exact ⟨leftPlain.noLineFeed, harmless.1.symm, rightPlain.noLineFeed⟩
  noComment := by
    rw [commentMark_infix_append_cons_iff harmless.2, not_or]
    exact ⟨leftPlain.noComment, rightPlain.noComment⟩

theorem IsPlain.cons {text : List Char} (plain : IsPlain text) {c : Char}
    (harmless : c ≠ '\n' ∧ c ≠ '/') : IsPlain (c :: text) :=
  isPlain_nil.append_cons plain harmless

theorem IsPlain.concat {text : List Char} (plain : IsPlain text) {c : Char}
    (harmless : c ≠ '\n' ∧ c ≠ '/') : IsPlain (text ++ [c]) :=
  plain.append_cons isPlain_nil harmless

theorem IsPlain.normalize_eq_trim {text : List Char} (plain : IsPlain text) :
    normalize text = trim text := by
  rw [normalize_of_one_line plain.noLineFeed, beforeComment_eq_self plain.noComment]

/-- A plain text that is trimmed. -/
structure IsNormal (text : List Char) : Prop where
  plain : IsPlain text
  trimmed : IsTrimmed text

theorem IsNormal.normalize_eq {text : List Char} (normal : IsNormal text) :
    normalize text = text := by
  rw [normal.plain.normalize_eq_trim, trim_eq_self_iff.mpr normal.trimmed]

theorem isNormal_trim_beforeComment {line : List Char} (noLineFeed : '\n' ∉ line) :
    IsNormal (trim (beforeComment line)) where
  plain.noLineFeed found :=
    noLineFeed ((beforeComment_begins line).subset ((trim_within _).subset found))
  plain.noComment found := not_commentMark_infix_beforeComment line (found.trans (trim_within _))
  trimmed := isTrimmed_trim _

theorem IsNormal.append_space {left right : List Char} (leftNormal : IsNormal left)
    (rightNormal : IsNormal right) (leftSolid : left ≠ []) (rightSolid : right ≠ []) :
    IsNormal (left ++ ' ' :: right) where
  plain := leftNormal.plain.append_cons rightNormal.plain (by decide)
  trimmed := leftNormal.trimmed.append rightNormal.trimmed leftSolid rightSolid [' ']

/-- Induction over the lines of a text: it is one line, or two texts with a line end
between them. -/
theorem lines_induct {motive : List Char → Prop} (line : ∀ text, '\n' ∉ text → motive text)
    (join : ∀ left right, motive left → motive right → motive (left ++ '\n' :: right))
    (source : List Char) : motive source := by
  induction length : source.length using Nat.strong_induction_on generalizing source with
  | h size ih =>
      by_cases lineFeed : '\n' ∈ source
      · obtain ⟨left, right, rfl⟩ := List.append_of_mem lineFeed
        rw [List.length_append, List.length_cons] at length
        exact join left right (ih left.length (by omega) left rfl)
          (ih right.length (by omega) right rfl)
      · exact line source lineFeed

theorem isNormal_normalize (source : List Char) : IsNormal (normalize source) := by
  induction source using lines_induct with
  | line text noLineFeed =>
      rw [normalize_of_one_line noLineFeed]
      exact isNormal_trim_beforeComment noLineFeed
  | join left right leftNormal rightNormal =>
      rcases normalize_append_lineFeed_cases left right with
        joined | joined | ⟨leftSolid, rightSolid, joined⟩
      · rw [joined]
        exact rightNormal
      · rw [joined]
        exact leftNormal
      · rw [joined]
        exact leftNormal.append_space rightNormal leftSolid rightSolid

/-- Nothing comes in but the spaces between lines. -/
theorem mem_of_mem_normalize {source : List Char} {c : Char} (member : c ∈ normalize source) :
    c ∈ source ∨ c = ' ' := by
  induction source using lines_induct with
  | line text noLineFeed =>
      rw [normalize_of_one_line noLineFeed] at member
      exact .inl ((beforeComment_begins text).subset ((trim_within _).subset member))
  | join left right leftIH rightIH =>
      have inLeft : c ∈ normalize left → c ∈ left ++ '\n' :: right ∨ c = ' ' := fun found =>
        (leftIH found).imp_left (List.mem_append_left _)
      have inRight : c ∈ normalize right → c ∈ left ++ '\n' :: right ∨ c = ' ' := fun found =>
        (rightIH found).imp_left fun inside =>
          List.mem_append_right _ (List.mem_cons_of_mem _ inside)
      rcases normalize_append_lineFeed_cases left right with joined | joined | ⟨-, -, joined⟩
      · exact inRight (joined ▸ member)
      · exact inLeft (joined ▸ member)
      · rw [joined, List.mem_append, List.mem_cons] at member
        rcases member with found | isSpace | found
        · exact inLeft found
        · exact .inr isSpace
        · exact inRight found

/-- The text with one space behind it, if it is not empty. -/
def spaced (text : List Char) : List Char :=
  if text = [] then [] else text ++ [' ']

theorem normalize_append_lineFeed_of_right_solid (left : List Char) {right : List Char}
    (rightSolid : normalize right ≠ []) :
    normalize (left ++ '\n' :: right) = spaced (normalize left) ++ normalize right := by
  by_cases leftEmpty : normalize left = []
  · rw [normalize_append_lineFeed_of_left_nil leftEmpty, leftEmpty]
    rfl
  · rw [normalize_append_lineFeed leftEmpty rightSolid, spaced, if_neg leftEmpty]
    simp

theorem IsNormal.normalize_spaced {text : List Char} (normal : IsNormal text) :
    normalize (' ' :: spaced text) = text := by
  by_cases empty : text = []
  · rw [empty]
    decide
  · have plain : IsPlain (' ' :: (text ++ [' '])) :=
      (normal.plain.concat (by decide)).cons (by decide)
    rw [spaced, if_neg empty, plain.normalize_eq_trim, normal.trimmed.trim_between rfl rfl]

end SceneScript.Script
