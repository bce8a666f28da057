import SceneScript.Decimal.Fixed

/-!
# Characters of written numbers

A written number consists of digits, a point and a minus sign, or of the word that a
spelling has for it.
-/

set_option autoImplicit false

namespace SceneScript.Decimal

/-- What the digits of a number are written with. -/
def isNumberChar (c : Char) : Bool :=
  c.isDigit || c = '.' || c = '-'

theorem isNumberChar_of_isDigit {c : Char} (digit : c.isDigit = true) : isNumberChar c = true := by
  simp only [isNumberChar, digit, Bool.true_or]

theorem isNumberChar_of_mem_toDigits {value : Nat} {c : Char} (member : c ∈ toDigits value) :
    isNumberChar c = true :=
  isNumberChar_of_isDigit (Nat.isDigit_of_mem_toDigits (by decide) (by decide) member)

theorem isNumberChar_of_mem_zeros {count : Nat} {c : Char} (member : c ∈ List.replicate count '0') :
    isNumberChar c = true := by
  cases List.eq_of_mem_replicate member
  decide

/-- A point put between two parts of a text. -/
theorem isNumberChar_of_mem_point {text : List Char} (digits : ∀ c ∈ text, isNumberChar c = true)
    (place : Nat) : ∀ c ∈ text.take place ++ '.' :: text.drop place, isNumberChar c = true := by
  intro c member
  simp only [List.mem_append, List.mem_cons] at member
  obtain before | rfl | behind := member
  · exact digits c (List.mem_of_mem_take before)
  · decide
  · exact digits c (List.mem_of_mem_drop behind)

theorem isNumberChar_of_mem_plain (number : Decimal) :
    ∀ c ∈ plain number, isNumberChar c = true := by
  intro c member
  simp only [plain] at member
  split at member
  · obtain digit | zero := List.mem_append.mp member
    · exact isNumberChar_of_mem_toDigits digit
    · exact isNumberChar_of_mem_zeros zero
  split at member
  · exact isNumberChar_of_mem_point (fun c => isNumberChar_of_mem_toDigits) _ c member
  · simp only [List.mem_cons, List.mem_append] at member
    obtain rfl | rfl | zero | digit := member
    · decide
    · decide
    · exact isNumberChar_of_mem_zeros zero
    · exact isNumberChar_of_mem_toDigits digit

theorem isNumberChar_of_mem_withPlaces (places units : Nat) :
    ∀ c ∈ withPlaces places units, isNumberChar c = true := by
  have padded : ∀ c ∈ List.replicate (places + 1 - (toDigits units).length) '0' ++ toDigits units,
      isNumberChar c = true := by
    intro c member
    obtain zero | digit := List.mem_append.mp member
    · exact isNumberChar_of_mem_zeros zero
    · exact isNumberChar_of_mem_toDigits digit
  unfold withPlaces
  simp only
  split
  · exact padded
  · exact isNumberChar_of_mem_point padded _

theorem mem_signed {negative : Bool} {text : List Char} {c : Char}
    (member : c ∈ signed negative text) : isNumberChar c = true ∨ c ∈ text := by
  unfold signed at member
  split at member
  · obtain rfl | inside := List.mem_cons.mp member
    · exact .inl (by decide)
    · exact .inr inside
  · exact .inr member

/-- A number is written with a word of the spelling, or with digits. -/
theorem write_cases (spelling : Spelling) (number : Float) :
    spelling.write number = spelling.notANumber ∨
      (∃ negative, spelling.write number =
        String.ofList (signed negative spelling.infinity.toList)) ∨
      ∀ c ∈ (spelling.write number).toList, isNumberChar c = true := by
  unfold Spelling.write
  split
  · exact .inl rfl
  · exact .inr (.inl ⟨_, rfl⟩)
  refine .inr (.inr fun c member => ?_)
  split at member
  · rw [String.toList_ofList] at member
    obtain sign | zero := mem_signed member
    · exact sign
    · cases List.mem_singleton.mp zero
      decide
  · rw [String.toList_ofList] at member
    exact (mem_signed member).elim id (isNumberChar_of_mem_plain _ c)

theorem mem_write {spelling : Spelling} {number : Float} {c : Char}
    (member : c ∈ (spelling.write number).toList) :
    isNumberChar c = true ∨ c ∈ spelling.notANumber.toList ∨ c ∈ spelling.infinity.toList := by
  obtain word | ⟨negative, word⟩ | digits := write_cases spelling number
  · exact .inr (.inl (word ▸ member))
  · rw [word, String.toList_ofList] at member
    exact (mem_signed member).imp_right .inr
  · exact .inl (digits c member)

theorem mem_fixed {places : Nat} {number : Float} {c : Char}
    (member : c ∈ (fixed places number).toList) :
    isNumberChar c = true ∨ c ∈ exact.notANumber.toList ∨ c ∈ exact.infinity.toList := by
  unfold fixed at member
  split at member
  · rw [String.toList_ofList] at member
    exact .inl ((mem_signed member).elim id (isNumberChar_of_mem_withPlaces _ _ c))
  · exact mem_write member

theorem mem_repr {value : Nat} {c : Char} (member : c ∈ (Nat.repr value).toList) :
    isNumberChar c = true := by
  rw [Nat.repr_eq_ofList_toDigits, String.toList_ofList] at member
  exact isNumberChar_of_mem_toDigits member

end SceneScript.Decimal
