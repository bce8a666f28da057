import SceneScript.Text.Delimiter

/-!
# Balanced texts

A text is balanced if no stretch at its start closes more levels than it opens and
the whole closes as many as it opens. A search for the end of a bracketed stretch
passes over a balanced text, and it never looks behind the end that it finds.
-/

set_option autoImplicit false

namespace SceneScript.Text

variable {α : Type} [DecidableEq α]

/-- No stretch at the start closes more than it opens, and the whole closes what it
opens. -/
structure IsBalanced (opening closing : α) (text : List α) : Prop where
  stretch : ∀ length, (text.take length).count closing ≤ (text.take length).count opening
  whole : text.count closing = text.count opening

theorem isBalanced_of_not_mem {opening closing : α} {text : List α} (noOpening : opening ∉ text)
    (noClosing : closing ∉ text) : IsBalanced opening closing text := by
  constructor
  · intro length
    have none : closing ∉ text.take length := fun member => noClosing (List.mem_of_mem_take member)
    rw [List.count_eq_zero_of_not_mem none]
    exact Nat.zero_le _
  · rw [List.count_eq_zero_of_not_mem noClosing, List.count_eq_zero_of_not_mem noOpening]

theorem IsBalanced.append {opening closing : α} {left right : List α}
    (leftBalanced : IsBalanced opening closing left)
    (rightBalanced : IsBalanced opening closing right) :
    IsBalanced opening closing (left ++ right) := by
  constructor
  · intro length
    rw [List.take_append, List.count_append, List.count_append]
    exact Nat.add_le_add (leftBalanced.stretch length) (rightBalanced.stretch _)
  · rw [List.count_append, List.count_append, leftBalanced.whole, rightBalanced.whole]

theorem IsBalanced.of_append {opening closing : α} {left right : List α}
    (balanced : IsBalanced opening closing (left ++ right))
    (even : left.count closing = left.count opening) :
    IsBalanced opening closing left ∧ IsBalanced opening closing right := by
  refine ⟨⟨fun length => ?_, even⟩, ⟨fun length => ?_, ?_⟩⟩
  · have stretch := balanced.stretch (min length left.length)
    rwa [List.take_append_of_le_length (Nat.min_le_right _ _), ← List.take_eq_take_min] at stretch
  · have stretch := balanced.stretch (left.length + length)
    rw [List.take_length_add_append, List.count_append, List.count_append, even] at stretch
    exact Nat.le_of_add_le_add_left stretch
  · have whole := balanced.whole
    rw [List.count_append, List.count_append, even] at whole
    exact Nat.add_left_cancel whole

theorem IsBalanced.enclose {opening closing : α} {inner : List α} (distinct : opening ≠ closing)
    (balanced : IsBalanced opening closing inner) :
    IsBalanced opening closing (opening :: (inner ++ [closing])) := by
  constructor
  · intro length
    cases length with
    | zero => simp
    | succ length =>
        have inside := balanced.stretch length
        have last : ([closing].take (length - inner.length)).count closing ≤ 1 :=
          Nat.le_trans List.count_le_length (List.length_take_le' _ _)
        rw [List.take_succ_cons, List.take_append, List.count_cons_self,
          List.count_cons_of_ne distinct, List.count_append, List.count_append]
        omega
  · rw [List.count_cons_self, List.count_cons_of_ne distinct, List.count_append, List.count_append,
      List.count_singleton_self, balanced.whole, List.count_singleton, if_neg]
    simpa using distinct.symm

/-! ## The end of a bracketed stretch -/

/-- All levels that were open at the start, and all opened since, are closed for the
first time after `count` elements. -/
structure ClosesAt (opening closing : α) (depth : Nat) (text : List α) (count : Nat) : Prop where
  inside : count ≤ text.length
  closed : (text.take count).count closing = (text.take count).count opening + depth
  first : ∀ shorter < count,
    (text.take shorter).count closing < (text.take shorter).count opening + depth

theorem ClosesAt.pos {opening closing : α} {depth count : Nat} {text : List α}
    (closes : ClosesAt opening closing depth text count) (isOpen : 0 < depth) : 0 < count := by
  rcases Nat.eq_zero_or_pos count with rfl | positive
  · have closed := closes.closed
    simp only [List.take_zero, List.count_nil] at closed
    omega
  · exact positive

theorem closesAt_cons_iff_count {opening closing : α} {x : α} {depth count : Nat}
    (isOpen : 0 < depth) {rest : List α} :
    ClosesAt opening closing depth (x :: rest) (count + 1) ↔
      count ≤ rest.length ∧
      (rest.take count).count closing + (if x = closing then 1 else 0) =
        (rest.take count).count opening + (if x = opening then 1 else 0) + depth ∧
      ∀ shorter < count,
        (rest.take shorter).count closing + (if x = closing then 1 else 0) <
          (rest.take shorter).count opening + (if x = opening then 1 else 0) + depth := by
  constructor
  · intro closes
    refine ⟨Nat.le_of_succ_le_succ closes.inside, ?_, fun shorter lt => ?_⟩
    · simpa only [List.take_succ_cons, List.count_cons, beq_iff_eq] using closes.closed
    · simpa only [List.take_succ_cons, List.count_cons, beq_iff_eq] using
        closes.first (shorter + 1) (Nat.succ_lt_succ lt)
  · rintro ⟨inside, closed, first⟩
    refine ⟨Nat.succ_le_succ inside, ?_, fun shorter lt => ?_⟩
    · simpa only [List.take_succ_cons, List.count_cons, beq_iff_eq] using closed
    · cases shorter with
      | zero => simpa using isOpen
      | succ shorter =>
          simpa only [List.take_succ_cons, List.count_cons, beq_iff_eq] using
            first shorter (Nat.lt_of_succ_lt_succ lt)

/-- What an element in front opens or closes can be counted as depth instead. -/
theorem closesAt_iff_shift {opening closing : α} {depth shifted closings openings count : Nat}
    {rest : List α} (same : openings + depth = shifted + closings) :
    (count ≤ rest.length ∧
      (rest.take count).count closing + closings =
        (rest.take count).count opening + openings + depth ∧
      ∀ shorter < count, (rest.take shorter).count closing + closings <
        (rest.take shorter).count opening + openings + depth) ↔
      ClosesAt opening closing shifted rest count := by
  constructor
  · rintro ⟨inside, closed, first⟩
    exact ⟨inside, by omega, fun shorter lt => by have := first shorter lt; omega⟩
  · rintro ⟨inside, closed, first⟩
    exact ⟨inside, by omega, fun shorter lt => by have := first shorter lt; omega⟩

theorem closesAt_cons_iff {opening closing : α} (distinct : opening ≠ closing) {x : α}
    {depth count : Nat} (isOpen : 0 < depth) {rest : List α} :
    ClosesAt opening closing depth (x :: rest) (count + 1) ↔
      if x = opening then ClosesAt opening closing (depth + 1) rest count
      else if x = closing then
        if depth ≤ 1 then count = 0 else ClosesAt opening closing (depth - 1) rest count
      else ClosesAt opening closing depth rest count := by
  rw [closesAt_cons_iff_count isOpen]
  by_cases opens : x = opening
  · have notClosing : x ≠ closing := fun closes => distinct (opens.symm.trans closes)
    simp only [if_pos opens, if_neg notClosing]
    exact closesAt_iff_shift (Nat.add_comm 1 depth)
  by_cases closes : x = closing
  · simp only [if_neg opens, if_pos closes]
    by_cases lastLevel : depth ≤ 1
    · -- The last level is closed by this element, so nothing behind it counts.
      rw [if_pos lastLevel]
      constructor
      · rintro ⟨inside, closed, first⟩
        rcases Nat.eq_zero_or_pos count with zero | positive
        · exact zero
        · have start := first 0 positive
          simp only [List.take_zero, List.count_nil] at start
          omega
      · rintro rfl
        refine ⟨Nat.zero_le _, ?_, fun shorter lt => absurd lt (Nat.not_lt_zero _)⟩
        simp only [List.take_zero, List.count_nil]
        omega
    · rw [if_neg lastLevel]
      exact closesAt_iff_shift (by omega)
  · simp only [if_neg opens, if_neg closes]
    exact closesAt_iff_shift (Nat.add_comm 0 depth)

/-- The search for the end finds the first place at which all levels are closed. -/
theorem closingLength_eq_some_iff {opening closing : α} (distinct : opening ≠ closing)
    {depth count : Nat} (isOpen : 0 < depth) {text : List α} :
    closingLength opening closing depth text = some count ↔
      ClosesAt opening closing depth text count := by
  induction text generalizing depth count with
  | nil =>
      constructor
      · intro found
        cases found
      · intro closes
        have positive := closes.pos isOpen
        exact absurd closes.inside (Nat.not_le_of_lt positive)
  | cons x rest ih =>
      cases count with
      | zero =>
          constructor
          · intro found
            exact absurd (closingLength_pos found) (Nat.lt_irrefl 0)
          · intro closes
            exact absurd (closes.pos isOpen) (Nat.lt_irrefl 0)
      | succ count =>
          rw [closesAt_cons_iff distinct isOpen, closingLength]
          split
          · rw [← ih (Nat.succ_pos depth)]
            simp [Option.map_eq_some_iff]
          · split
            · split
              · simp only [Option.some.injEq, Nat.right_eq_add]
              · rw [← ih (by omega)]
                simp [Option.map_eq_some_iff]
            · rw [← ih isOpen]
              simp [Option.map_eq_some_iff]

theorem IsBalanced.closingLength {opening closing : α} {inner : List α}
    (distinct : opening ≠ closing) (balanced : IsBalanced opening closing inner) (rest : List α) :
    closingLength opening closing 1 (inner ++ closing :: rest) = some (inner.length + 1) := by
  rw [closingLength_eq_some_iff distinct Nat.one_pos]
  refine ⟨by simp, ?_, fun shorter lt => ?_⟩
  · have taken : (inner ++ closing :: rest).take (inner.length + 1) = inner ++ [closing] := by
      rw [List.take_length_add_append, List.take_succ_cons, List.take_zero]
    rw [taken, List.count_append, List.count_append, List.count_singleton_self,
      List.count_singleton, if_neg (by simpa using distinct.symm), balanced.whole]
  · rw [List.take_append_of_le_length (Nat.le_of_lt_succ lt)]
    exact Nat.lt_succ_of_le (balanced.stretch shorter)

theorem IsBalanced.balanced? {opening closing : α} {inner : List α}
    (distinct : opening ≠ closing) (balanced : IsBalanced opening closing inner) (rest : List α) :
    balanced? opening closing (opening :: (inner ++ closing :: rest)) =
      some (opening :: (inner ++ [closing]), rest) := by
  have divided : (opening :: (inner ++ closing :: rest)).splitAt (inner.length + 2) =
      (opening :: (inner ++ [closing]), rest) := by
    have whole : opening :: (inner ++ closing :: rest) =
        opening :: (inner ++ [closing]) ++ rest := by simp
    rw [List.splitAt_eq, whole, List.take_left' (by simp), List.drop_left' (by simp)]
  have found := balanced.closingLength distinct rest
  simp only [Text.balanced?, matchingClose, List.getElem?_cons_zero, if_true, List.drop_zero,
    Text.closingLength, found, Option.map_some, Nat.zero_add, divided]

/-- The first place at which the one open level is closed has the closing delimiter
in front of it, and what stands before is balanced. -/
theorem ClosesAt.exists_isBalanced {opening closing : α} (distinct : opening ≠ closing)
    {text : List α} {count : Nat} (closes : ClosesAt opening closing 1 text count) :
    ∃ inner, IsBalanced opening closing inner ∧ text.take count = inner ++ [closing] := by
  obtain ⟨length, rfl⟩ : ∃ length, count = length + 1 :=
    ⟨count - 1, by have := closes.pos Nat.one_pos; omega⟩
  obtain ⟨last, taken⟩ : ∃ last, text.take (length + 1) = text.take length ++ [last] := by
    have inside : length < text.length := closes.inside
    exact ⟨text[length], (List.take_append_getElem inside).symm⟩
  have before := closes.first length (Nat.lt_succ_self length)
  have closed := closes.closed
  rw [taken, List.count_append, List.count_append, List.count_singleton,
    List.count_singleton] at closed
  have isClosing : last = closing := by
    apply Decidable.byContradiction
    intro other
    simp only [beq_iff_eq, other, if_false] at closed
    omega
  subst isClosing
  refine ⟨text.take length, ⟨fun shorter => ?_, ?_⟩, taken⟩
  · rw [List.take_take]
    have within := closes.first (min shorter length) (by omega)
    omega
  · simp only [beq_self_eq_true, if_true, beq_iff_eq, distinct.symm, if_false] at closed
    omega

theorem balanced?_eq_some_iff {opening closing : α} (distinct : opening ≠ closing)
    {text block rest : List α} :
    balanced? opening closing text = some (block, rest) ↔
      ∃ inner, IsBalanced opening closing inner ∧ block = opening :: (inner ++ [closing]) ∧
        text = block ++ rest := by
  constructor
  · intro found
    have whole := append_of_balanced? found
    simp only [Text.balanced?, matchingClose, Option.map_eq_some_iff] at found
    obtain ⟨count, closed, parts⟩ := found
    split at closed
    · rename_i opens
      obtain ⟨tail, rfl⟩ : ∃ tail, text = opening :: tail := by
        cases text with
        | nil => cases opens
        | cons first tail => exact ⟨tail, by cases opens; rfl⟩
      simp only [List.drop_zero, closingLength, if_true, Option.map_map,
        Option.map_eq_some_iff] at closed
      obtain ⟨inner, innerFound, rfl⟩ := closed
      have closes := (closingLength_eq_some_iff distinct Nat.one_pos).mp innerFound
      obtain ⟨enclosed, isBalanced, taken⟩ := closes.exists_isBalanced distinct
      rw [List.splitAt_eq, Prod.mk.injEq] at parts
      refine ⟨enclosed, isBalanced, ?_, whole.symm⟩
      rw [← parts.1, ← taken, Function.comp_apply, Nat.zero_add, List.take_succ_cons]
    · cases closed
  · rintro ⟨inner, isBalanced, rfl, rfl⟩
    rw [List.cons_append, List.append_assoc, List.singleton_append]
    exact isBalanced.balanced? distinct rest

theorem balanced?_of_head {opening closing : α} {text : List α}
    (other : text.head? ≠ some opening) : balanced? opening closing text = none := by
  rw [balanced?, matchingClose, if_neg, Option.map_none]
  rwa [List.head?_eq_getElem?] at other

/-! ## What stands behind the end -/

theorem closingLength_le_length {opening closing : α} {depth count : Nat} {text : List α}
    (found : closingLength opening closing depth text = some count) : count ≤ text.length := by
  induction text generalizing depth count with
  | nil => cases found
  | cons x rest ih =>
      -- In every case the end is this element or lies in the text behind it.
      have behind : ∀ inner, (closingLength opening closing inner rest).map (· + 1) = some count →
          count ≤ rest.length + 1 := by
        intro inner further
        obtain ⟨shorter, innerFound, rfl⟩ := Option.map_eq_some_iff.mp further
        exact Nat.succ_le_succ (ih innerFound)
      rw [closingLength] at found
      split at found
      · exact behind _ found
      split at found
      · split at found
        · cases found
          exact Nat.succ_le_succ (Nat.zero_le _)
        · exact behind _ found
      · exact behind _ found

theorem closingLength_append {opening closing : α} {depth count : Nat} {text : List α}
    (found : closingLength opening closing depth text = some count) (more : List α) :
    closingLength opening closing depth (text ++ more) = some count := by
  induction text generalizing depth count with
  | nil => cases found
  | cons x rest ih =>
      have behind : ∀ inner, (closingLength opening closing inner rest).map (· + 1) = some count →
          (closingLength opening closing inner (rest ++ more)).map (· + 1) = some count := by
        intro inner further
        obtain ⟨shorter, innerFound, rfl⟩ := Option.map_eq_some_iff.mp further
        rw [ih innerFound, Option.map_some]
      rw [closingLength] at found
      rw [List.cons_append, closingLength]
      by_cases opens : x = opening
      · rw [if_pos opens] at found ⊢
        exact behind _ found
      rw [if_neg opens] at found ⊢
      by_cases closes : x = closing
      · rw [if_pos closes] at found ⊢
        by_cases lastLevel : depth ≤ 1
        · rw [if_pos lastLevel] at found ⊢
          exact found
        · rw [if_neg lastLevel] at found ⊢
          exact behind _ found
      · rw [if_neg closes] at found ⊢
        exact behind _ found

theorem balanced?_append {opening closing : α} {text block rest : List α}
    (found : balanced? opening closing text = some (block, rest)) (more : List α) :
    balanced? opening closing (text ++ more) = some (block, rest ++ more) := by
  simp only [balanced?, matchingClose, Option.map_eq_some_iff] at found ⊢
  obtain ⟨count, closed, parts⟩ := found
  split at closed
  · rename_i opens
    obtain ⟨inner, innerFound, rfl⟩ := Option.map_eq_some_iff.mp closed
    rw [List.drop_zero] at innerFound
    rw [List.splitAt_eq, Prod.mk.injEq] at parts
    refine ⟨0 + inner, ?_, ?_⟩
    · rw [if_pos, List.drop_zero, closingLength_append innerFound, Option.map_some]
      rw [List.getElem?_append_left (List.getElem?_eq_some_iff.mp opens).1, opens]
    · have bound : 0 + inner ≤ text.length := by
        rw [Nat.zero_add]
        exact closingLength_le_length innerFound
      rw [List.splitAt_eq, List.take_append_of_le_length bound, List.drop_append_of_le_length bound,
        parts.1, parts.2]
  · cases closed

end SceneScript.Text
