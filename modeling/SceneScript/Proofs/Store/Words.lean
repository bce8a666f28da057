import Mathlib.Data.List.SplitBy
import SceneScript.Proofs.Text.Word
import SceneScript.Store

/-!
# Substitution word by word

Two texts can be substituted one by one where no word goes across the seam between them. A
word stands for its number or for itself, and what is no part of a word stays. These three
laws say all there is to say: only one function has them.
-/

set_option autoImplicit false

namespace SceneScript

open SceneScript.Text

/-! ## Seams between words -/

namespace Text

/-- No word goes across the seam between two texts. -/
def Apart (left right : List Char) : Prop :=
  left.getLast?.any isWordChar = false ∨ right.head?.any isWordChar = false

theorem apart_singleton {c : Char} (ends : isWordChar c = false) (rest : List Char) :
    Apart [c] rest :=
  .inl ends

/-- Induction over the words of a text: it is empty, or it begins with a character that no
word contains, or with a whole word. -/
theorem words_induct {motive : List Char → Prop} (nil : motive [])
    (other : ∀ c rest, isWordChar c = false → motive rest → motive (c :: rest))
    (word : ∀ word rest, word ≠ [] → (∀ c ∈ word, isWordChar c = true) →
      rest.head?.any isWordChar = false → motive rest → motive (word ++ rest))
    (text : List Char) : motive text := by
  induction length : text.length using Nat.strong_induction_on generalizing text with
  | h size ih =>
      cases text with
      | nil => exact nil
      | cons c rest =>
          cases inWord : isWordChar c with
          | false => exact other c rest inWord (ih rest.length (by simp [← length]) rest rfl)
          | true =>
              have whole := leadingWord_append_afterWord (c :: rest)
              have solid : leadingWord (c :: rest) ≠ [] := by
                rw [leadingWord, List.takeWhile_cons_of_pos inWord]
                exact List.cons_ne_nil _ _
              have shorter : (afterWord (c :: rest)).length < size := by
                have positive := List.length_pos_of_ne_nil solid
                rw [← length, ← whole, List.length_append]
                simp only [whole]
                omega
              have divided := word _ _ solid (fun d member => List.mem_takeWhile_imp member)
                (any_head?_afterWord (c :: rest)) (ih _ shorter _ rfl)
              rwa [whole] at divided

end Text

namespace Store

theorem segments_append {left right : List Char} (apart : Apart left right) :
    segments (left ++ right) = segments left ++ segments right := by
  refine List.splitBy_append fun c isLast d isFirst => ?_
  obtain ends | ends := apart
  · rw [Option.mem_def.mp isLast, Option.any_some] at ends
    rw [ends, Bool.false_and]
  · rw [Option.mem_def.mp isFirst, Option.any_some] at ends
    rw [ends, Bool.and_false]

theorem segments_word {word : List Char} (solid : word ≠ [])
    (all : ∀ c ∈ word, isWordChar c = true) : segments word = [word] := by
  refine List.splitBy_of_isChain solid (List.Pairwise.isChain ?_)
  refine List.pairwise_of_forall_mem_list fun c inWord d inWordToo => ?_
  rw [all c inWord, all d inWordToo]
  rfl

variable (store : Store)

/-- The characters of a text after each bound word has been replaced. -/
def resolve (text : List Char) : List Char :=
  (segments text).flatMap store.expandSegment

theorem toList_substitute (text : String) :
    (store.substitute text).toList = store.resolve text.toList :=
  String.toList_ofList

@[simp] theorem resolve_nil : store.resolve [] = [] := rfl

theorem resolve_append {left right : List Char} (apart : Apart left right) :
    store.resolve (left ++ right) = store.resolve left ++ store.resolve right := by
  rw [resolve, segments_append apart, List.flatMap_append, ← resolve, ← resolve]

theorem resolve_word {word : List Char} (solid : word ≠ [])
    (all : ∀ c ∈ word, isWordChar c = true) : store.resolve word = store.expand word := by
  rw [resolve, segments_word solid all, List.flatMap_singleton, expandSegment,
    if_pos (List.all_eq_true.mpr all)]

theorem resolve_cons {c : Char} (ends : isWordChar c = false) (rest : List Char) :
    store.resolve (c :: rest) = c :: store.resolve rest := by
  have single : store.resolve [c] = [c] := by
    have alone : segments [c] = [[c]] := rfl
    simp [resolve, alone, expandSegment, ends]
  rw [← List.singleton_append, store.resolve_append (apart_singleton ends rest), single,
    List.singleton_append]

/-- Where a text does not begin with a word, it does not after substitution either. -/
theorem any_head?_resolve {text : List Char} (ends : text.head?.any isWordChar = false) :
    (store.resolve text).head?.any isWordChar = false := by
  cases text with
  | nil => rfl
  | cons c rest =>
      rw [store.resolve_cons ends]
      exact ends

theorem resolve_of_no_word {text : List Char} (ends : ∀ c ∈ text, isWordChar c = false) :
    store.resolve text = text := by
  induction text with
  | nil => rfl
  | cons c rest ih =>
      obtain ⟨first, others⟩ := List.forall_mem_cons.mp ends
      rw [store.resolve_cons first, ih others]

/-! ## The laws -/

/-- What it is to replace each bound word of a text by its number and to keep the rest. -/
structure ReplacesWords (replace : String → String) : Prop where
  append : ∀ left right, Apart left.toList right.toList →
    replace (left ++ right) = replace left ++ replace right
  word : ∀ word, word ≠ "" → (∀ c ∈ word.toList, isWordChar c = true) →
    replace word = match store.get? word with
      | some value => Decimal.spliced.write value
      | none => word
  other : ∀ text, (∀ c ∈ text.toList, isWordChar c = false) → replace text = text

theorem replacesWords_substitute : store.ReplacesWords store.substitute where
  append left right apart := by
    rw [← String.toList_inj]
    simp only [toList_substitute, String.toList_append, store.resolve_append apart]
  word word solid all := by
    have nonempty : word.toList ≠ [] := fun empty => solid (String.toList_eq_nil_iff.mp empty)
    rw [← String.toList_inj, toList_substitute, store.resolve_word nonempty all, expand,
      String.ofList_toList]
    cases store.get? word <;> rfl
  other text ends := by
    rw [← String.toList_inj, toList_substitute, store.resolve_of_no_word ends]

variable {store}

theorem ReplacesWords.unique {first second : String → String}
    (firstReplaces : store.ReplacesWords first) (secondReplaces : store.ReplacesWords second) :
    first = second := by
  have agree (text : List Char) : first (String.ofList text) = second (String.ofList text) := by
    induction text using words_induct with
    | nil =>
        rw [firstReplaces.other _ (by simp), secondReplaces.other _ (by simp)]
    | other c rest ends ih =>
        have apart : Apart (String.ofList [c]).toList (String.ofList rest).toList := by
          simpa using apart_singleton ends rest
        have single : ∀ d ∈ (String.ofList [c]).toList, isWordChar d = false := by
          simpa using ends
        rw [← List.singleton_append, String.ofList_append, firstReplaces.append _ _ apart,
          secondReplaces.append _ _ apart, firstReplaces.other _ single,
          secondReplaces.other _ single, ih]
    | word word rest solid all ends ih =>
        have apart : Apart (String.ofList word).toList (String.ofList rest).toList := by
          simpa [Apart] using Or.inr ends
        have nonempty : String.ofList word ≠ "" := by simpa using solid
        have allInWord : ∀ c ∈ (String.ofList word).toList, isWordChar c = true := by
          simpa using all
        rw [String.ofList_append, firstReplaces.append _ _ apart, secondReplaces.append _ _ apart,
          firstReplaces.word _ nonempty allInWord, secondReplaces.word _ nonempty allInWord, ih]
  funext text
  rw [← String.ofList_toList (s := text), agree]

/-- Substitution obeys the laws of words for every store, and they leave no other choice: it
goes text by text where no word is cut, gives each word its number if it is bound, and keeps
all else. -/
theorem replacesWords_iff (store : Store) (replace : String → String) :
    store.ReplacesWords replace ↔ replace = store.substitute := by
  constructor
  · exact fun replaces => replaces.unique store.replacesWords_substitute
  · rintro rfl
    exact store.replacesWords_substitute

example : (Store.empty.set "i" 2).substitute "box_i, é-i.i" = "box_i, é-2.2" := by
  decide +kernel

end Store

end SceneScript
