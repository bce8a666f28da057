import Mathlib.Data.List.TakeWhile
import SceneScript.Proofs.Text.Blank
import SceneScript.Text.Word

/-!
# Words at the start of a text

The leading word of a text ends where a character stands that no word contains,
whatever comes behind it. A text starts a loop exactly if its leading word is the
loop keyword.
-/

set_option autoImplicit false

namespace SceneScript.Text

theorem leadingWord_append_cons (text rest : List Char) {c : Char} (ends : isWordChar c = false) :
    leadingWord (text ++ c :: rest) = leadingWord text := by
  induction text with
  | nil => simp [leadingWord, ends]
  | cons d text ih =>
      by_cases word : isWordChar d = true
      · simp only [leadingWord, List.cons_append, List.takeWhile_cons_of_pos word] at ih ⊢
        rw [ih]
      · simp [leadingWord, word]

theorem leadingWord_of_word {word : List Char} (all : ∀ c ∈ word, isWordChar c = true) :
    leadingWord word = word :=
  List.takeWhile_eq_self_iff.mpr all

theorem leadingWord_word {word : List Char} (all : ∀ c ∈ word, isWordChar c = true)
    {c : Char} (ends : isWordChar c = false) (rest : List Char) :
    leadingWord (word ++ c :: rest) = word := by
  rw [leadingWord_append_cons word rest ends, leadingWord_of_word all]

theorem afterWord_word {word : List Char} (all : ∀ c ∈ word, isWordChar c = true)
    {c : Char} (ends : isWordChar c = false) (rest : List Char) :
    afterWord (word ++ c :: rest) = c :: rest := by
  rw [afterWord, List.dropWhile_append_of_pos all, List.dropWhile_cons_of_neg (by simp [ends])]

theorem any_head?_afterWord (text : List Char) :
    (afterWord text).head?.any isWordChar = false := by
  have stops := List.head?_dropWhile_not isWordChar text
  rw [← afterWord] at stops
  cases head : (afterWord text).head? with
  | none => rfl
  | some c => simpa [head] using stops

theorem not_mem_word {word : List Char} (all : ∀ c ∈ word, isWordChar c = true) {c : Char}
    (ends : isWordChar c = false) : c ∉ word := by
  intro member
  rw [all c member] at ends
  cases ends

theorem isBlank_of_isWordChar {c : Char} (word : isWordChar c = true) : isBlank c = false := by
  have cases : isWordChar c = ((decide (c.val ≥ 65 ∧ c.val ≤ 90) || c.val ≥ 97 && c.val ≤ 122) ||
      c.val ≥ 48 && c.val ≤ 57 || c = '_') := rfl
  simp only [cases, Bool.or_eq_true, decide_eq_true_eq, Bool.and_eq_true, ge_iff_le,
    UInt32.le_iff_toNat_le] at word
  rcases word with ((⟨low, high⟩ | ⟨low, high⟩) | ⟨low, high⟩) | underscore
  · exact isBlank_of_visible (Nat.lt_of_lt_of_le (by decide) low)
      (Nat.lt_of_le_of_lt high (by decide))
  · exact isBlank_of_visible (Nat.lt_of_lt_of_le (by decide) low)
      (Nat.lt_of_le_of_lt high (by decide))
  · exact isBlank_of_visible (Nat.lt_of_lt_of_le (by decide) low)
      (Nat.lt_of_le_of_lt high (by decide))
  · subst underscore
    decide

theorem isAsciiBlank_of_isWordChar {c : Char} (word : isWordChar c = true) :
    isAsciiBlank c = false := by
  rw [Bool.eq_false_iff]
  intro blank
  have solid := isBlank_of_isWordChar word
  rw [isBlank_of_isAsciiBlank blank] at solid
  cases solid

theorem isTrimmed_of_word {word : List Char} (all : ∀ c ∈ word, isWordChar c = true) :
    IsTrimmed word where
  first c head := isBlank_of_isWordChar (all c (List.mem_of_mem_head? head))
  last c closes := isBlank_of_isWordChar (all c (List.mem_of_mem_getLast? closes))

theorem IsName.isWordChar {name : List Char} (named : IsName name) :
    ∀ c ∈ name, isWordChar c = true := by
  cases name with
  | nil => exact named.elim
  | cons c rest =>
      intro d member
      rcases List.mem_cons.mp member with rfl | member
      · exact isWordChar_of_isWordStart named.1
      · exact named.2 d member

theorem isWordChar_of_mem_loopKeyword : ∀ c ∈ loopKeyword, isWordChar c = true :=
  List.all_eq_true.mp rfl

theorem startsLoop_iff {text : List Char} :
    startsLoop text = true ↔ leadingWord text = loopKeyword := by
  constructor
  · intro starts
    simp only [startsLoop, Bool.and_eq_true, List.isPrefixOf_iff_prefix,
      Bool.not_eq_true'] at starts
    obtain ⟨⟨rest, rfl⟩, ends⟩ := starts
    rw [List.drop_left] at ends
    have all := isWordChar_of_mem_loopKeyword
    cases rest with
    | nil =>
        rw [List.append_nil]
        exact leadingWord_of_word all
    | cons c rest => exact leadingWord_word all (by simpa using ends) rest
  · intro leading
    have whole := leadingWord_append_afterWord text
    rw [leading] at whole
    rw [← whole, startsLoop, List.drop_left, any_head?_afterWord]
    simp

theorem startsLoop_append_cons (text rest : List Char) {c : Char} (ends : isWordChar c = false) :
    startsLoop (text ++ c :: rest) = startsLoop text := by
  rw [Bool.eq_iff_iff, startsLoop_iff, startsLoop_iff, leadingWord_append_cons text rest ends]

end SceneScript.Text
