import Mathlib.Data.List.Forall2
import SceneScript.Proofs.Offset.Place
import SceneScript.Proofs.Text.Blank
import SceneScript.Text.Hex

/-!
# Letters in any case and hexadecimal digits

The case of an ASCII letter changes neither whether it is blank nor its value as a
hexadecimal digit. Hexadecimal digits are ASCII characters with values below 16.
-/

set_option autoImplicit false

namespace SceneScript.Text

open SceneScript.Offset

/-! ## The case of letters -/

/-- The texts differ at most in the case of ASCII letters. -/
def SameLetters (left right : List Char) : Prop :=
  left.map Char.toLower = right.map Char.toLower

instance (left right : List Char) : Decidable (SameLetters left right) :=
  inferInstanceAs (Decidable (_ = _))

theorem toLower_cases (c : Char) :
    c.toLower = c ∨ 65 ≤ c.toNat ∧ c.toNat ≤ 90 ∧ c.toLower.toNat = c.toNat + 32 := by
  unfold Char.toLower
  split
  · rename_i upper
    have low : 65 ≤ c.toNat := upper.1
    have high : c.toNat ≤ 90 := upper.2
    have code : (c.val + ('a'.val - 'A'.val)).toNat = c.toNat + 32 := by
      rw [UInt32.toNat_add]
      exact Nat.mod_eq_of_lt (by change c.toNat + 32 < 4294967296; omega)
    exact .inr ⟨low, high, code⟩
  · exact .inl rfl

theorem isBlank_toLower (c : Char) : isBlank c.toLower = isBlank c := by
  obtain same | ⟨low, high, code⟩ := toLower_cases c
  · rw [same]
  · rw [isBlank_of_visible (by omega) (by omega), isBlank_of_visible (by omega) (by omega)]

theorem map_toLower_map_toLower (text : List Char) :
    (text.map Char.toLower).map Char.toLower = text.map Char.toLower := by
  rw [List.map_map]
  refine List.map_congr_left fun c _ => ?_
  obtain same | ⟨low, high, code⟩ := toLower_cases c
  · rw [Function.comp_apply, same, same]
  · obtain same | ⟨-, high', -⟩ := toLower_cases c.toLower
    · exact same
    · omega

/-- A character that is no letter has no other case. -/
theorem toLower_eq_iff {c d : Char} (other : d.toNat < 65) : c.toLower = d ↔ c = d := by
  obtain same | ⟨low, high, code⟩ := toLower_cases c
  · rw [same]
  · constructor
    · rintro rfl
      omega
    · rintro rfl
      omega

/-! ## Hexadecimal digits -/

def isHexDigit (c : Char) : Bool :=
  (hexDigit? c).isSome

theorem hexDigit?_eq_some_iff {c : Char} {value : Nat} :
    hexDigit? c = some value ↔
      48 ≤ c.toNat ∧ c.toNat ≤ 57 ∧ c.toNat = value + 48 ∨
      65 ≤ c.toNat ∧ c.toNat ≤ 70 ∧ c.toNat = value + 55 ∨
      97 ≤ c.toNat ∧ c.toNat ≤ 102 ∧ c.toNat = value + 87 := by
  have digit : c.isDigit = true ↔ 48 ≤ c.toNat ∧ c.toNat ≤ 57 := by
    simp only [Char.isDigit, Bool.and_eq_true, decide_eq_true_eq, ge_iff_le,
      UInt32.le_iff_toNat_le]
    exact Iff.rfl
  have lower : 'a' ≤ c ∧ c ≤ 'f' ↔ 97 ≤ c.toNat ∧ c.toNat ≤ 102 := Iff.rfl
  have upper : 'A' ≤ c ∧ c ≤ 'F' ↔ 65 ≤ c.toNat ∧ c.toNat ≤ 70 := Iff.rfl
  have zero : '0'.toNat = 48 := rfl
  have small : 'a'.toNat = 97 := rfl
  have large : 'A'.toNat = 65 := rfl
  simp only [hexDigit?, digit, lower, upper, zero, small, large]
  split
  · simp only [Option.some.injEq]
    omega
  split
  · simp only [Option.some.injEq]
    omega
  split
  · simp only [Option.some.injEq]
    omega
  · simp only [reduceCtorEq, false_iff]
    omega

theorem lt_of_hexDigit? {c : Char} {value : Nat} (found : hexDigit? c = some value) :
    value < 16 := by
  rw [hexDigit?_eq_some_iff] at found
  omega

theorem isAsciiClass_isHexDigit : IsAsciiClass isHexDigit := by
  intro c digit
  obtain ⟨value, found⟩ := Option.isSome_iff_exists.mp digit
  rw [hexDigit?_eq_some_iff] at found
  unfold IsAscii
  omega

theorem isBlank_of_isHexDigit {c : Char} (digit : isHexDigit c = true) : isBlank c = false := by
  obtain ⟨value, found⟩ := Option.isSome_iff_exists.mp digit
  rw [hexDigit?_eq_some_iff] at found
  exact isBlank_of_visible (by omega) (by omega)

theorem hexDigit?_toLower (c : Char) : hexDigit? c.toLower = hexDigit? c := by
  ext value
  rw [hexDigit?_eq_some_iff, hexDigit?_eq_some_iff]
  obtain same | ⟨low, high, code⟩ := toLower_cases c
  · rw [same]
  · omega

/-- The characters are hexadecimal digits with the given values. -/
def IsHex (digits : List Char) (values : List Nat) : Prop :=
  List.Forall₂ (fun c value => hexDigit? c = some value) digits values

theorem IsHex.isHexDigit {digits : List Char} {values : List Nat} (read : IsHex digits values) :
    ∀ c ∈ digits, isHexDigit c = true := by
  induction read with
  | nil => exact List.forall_mem_nil _
  | cons first _ ih => exact List.forall_mem_cons.mpr ⟨Option.isSome_iff_exists.mpr ⟨_, first⟩, ih⟩

theorem mapM_hexDigit?_eq_some_iff {digits : List Char} {values : List Nat} :
    digits.mapM hexDigit? = some values ↔ IsHex digits values := by
  induction digits generalizing values with
  | nil =>
      rw [IsHex, List.forall₂_nil_left_iff]
      simp [eq_comm]
  | cons c rest ih =>
      simp only [List.mapM_cons, Option.bind_eq_bind, Option.bind_eq_some_iff, Option.pure_def,
        Option.some.injEq, ih]
      constructor
      · rintro ⟨value, first, others, ofRest, rfl⟩
        exact .cons first ofRest
      · intro read
        cases read with
        | cons first ofRest => exact ⟨_, first, _, ofRest, rfl⟩

theorem mapM_hexDigit?_map_toLower (digits : List Char) :
    (digits.map Char.toLower).mapM hexDigit? = digits.mapM hexDigit? := by
  have same : hexDigit? ∘ Char.toLower = hexDigit? := funext hexDigit?_toLower
  rw [List.mapM_map, same]

end SceneScript.Text
