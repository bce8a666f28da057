import SceneScript.Proofs.Decimal.Characters
import SceneScript.Proofs.Text.Word

/-!
# Texts on one line

Names and written numbers have no line feed. Lines without one, each ended by a line feed,
are found again by dividing their text at the line feeds.
-/

set_option autoImplicit false

namespace SceneScript.Text

def IsOneLine (text : String) : Prop :=
  '\n' ∉ text.toList

instance (text : String) : Decidable (IsOneLine text) :=
  inferInstanceAs (Decidable ('\n' ∉ text.toList))

@[simp] theorem isOneLine_append {first second : String} :
    IsOneLine (first ++ second) ↔ IsOneLine first ∧ IsOneLine second := by
  simp only [IsOneLine, String.toList_append, List.mem_append, not_or]

@[simp] theorem isOneLine_ofList {text : List Char} :
    IsOneLine (String.ofList text) ↔ '\n' ∉ text := by
  rw [IsOneLine, String.toList_ofList]

theorem IsName.isOneLine {name : String} (named : IsName name.toList) : IsOneLine name :=
  not_mem_word named.isWordChar (by decide)

/-! ## Numbers -/

theorem isOneLine_write {spelling : Decimal.Spelling} (ofNaN : IsOneLine spelling.notANumber)
    (ofInfinity : IsOneLine spelling.infinity) (number : Float) :
    IsOneLine (spelling.write number) := by
  intro member
  obtain inDigits | inNaN | inInfinity := Decimal.mem_write member
  · exact absurd inDigits (by decide)
  · exact ofNaN inNaN
  · exact ofInfinity inInfinity

@[simp] theorem isOneLine_write_exact (number : Float) : IsOneLine (Decimal.exact.write number) :=
  isOneLine_write (by decide) (by decide) number

@[simp] theorem isOneLine_write_spliced (number : Float) :
    IsOneLine (Decimal.spliced.write number) :=
  isOneLine_write (by decide) (by decide) number

@[simp] theorem isOneLine_fixed (places : Nat) (number : Float) :
    IsOneLine (Decimal.fixed places number) := by
  intro member
  have outside : ¬ (Decimal.isNumberChar '\n' = true ∨ '\n' ∈ Decimal.exact.notANumber.toList ∨
      '\n' ∈ Decimal.exact.infinity.toList) := by decide
  exact outside (Decimal.mem_fixed member)

@[simp] theorem isOneLine_repr (value : Nat) : IsOneLine (Nat.repr value) :=
  fun member => absurd (Decimal.mem_repr member) (by decide)

/-! ## Lines -/

theorem toList_join_cons_line (line : String) (rest : List String) :
    (String.join ((line :: rest).map (· ++ "\n"))).toList =
      line.toList ++ '\n' :: (String.join (rest.map (· ++ "\n"))).toList := by
  simp [String.toList_join]

theorem splitOn_join_lines {lines : List String} (each : ∀ line ∈ lines, IsOneLine line) :
    (String.join (lines.map (· ++ "\n"))).toList.splitOn '\n' =
      lines.map String.toList ++ [[]] := by
  induction lines with
  | nil => rfl
  | cons line rest ih =>
      obtain ⟨oneLine, others⟩ := List.forall_mem_cons.mp each
      rw [toList_join_cons_line, List.splitOn_append_cons_self_of_not_mem oneLine, ih others]
      rfl

theorem count_join_lines {lines : List String} (each : ∀ line ∈ lines, IsOneLine line) :
    (String.join (lines.map (· ++ "\n"))).toList.count '\n' = lines.length := by
  induction lines with
  | nil => rfl
  | cons line rest ih =>
      obtain ⟨oneLine, others⟩ := List.forall_mem_cons.mp each
      rw [toList_join_cons_line, List.count_append, List.count_cons_self, ih others,
        List.count_eq_zero_of_not_mem oneLine, Nat.zero_add, List.length_cons]

theorem subset_intercalate {separator part : List Char} {texts : List (List Char)}
    (member : part ∈ texts) : part ⊆ separator.intercalate texts := by
  induction texts with
  | nil => cases member
  | cons text rest ih =>
      cases rest with
      | nil =>
          cases List.mem_singleton.mp member
          exact fun c inside => by simpa using inside
      | cons next rest =>
          rw [List.intercalate_cons_cons]
          intro c inside
          obtain rfl | later := List.mem_cons.mp member
          · exact List.mem_append_left _ (List.mem_append_left separator inside)
          · exact List.mem_append_right _ (ih later inside)

theorem subset_of_mem_splitOn {separator : Char} {text part : List Char}
    (member : part ∈ text.splitOn separator) : part ⊆ text := by
  have whole : [separator].intercalate (text.splitOn separator) = text :=
    List.intercalate_splitOn separator
  exact whole ▸ subset_intercalate member

end SceneScript.Text
