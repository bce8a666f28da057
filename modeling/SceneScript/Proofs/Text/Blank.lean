import Mathlib.Data.List.DropRight
import SceneScript.Text.Blank

/-!
# Trimming

A text is trimmed if it neither begins nor ends with a blank. Trimming leaves such a
text alone, and trimming a text with blanks beside it gives the text back.
-/

set_option autoImplicit false

namespace SceneScript.Text

/-- Between the space and the first control character behind ASCII no character is blank. -/
theorem isBlank_of_visible {c : Char} (low : 32 < c.toNat) (high : c.toNat < 133) :
    isBlank c = false := by
  simp only [isBlank, blankRanges, List.any_cons, List.any_nil, Bool.or_false, Bool.or_eq_false_iff,
    Bool.and_eq_false_iff, decide_eq_false_iff_not]
  omega

/-- The text neither begins nor ends with a blank. -/
structure IsTrimmed (text : List Char) : Prop where
  first : ∀ c, text.head? = some c → isBlank c = false
  last : ∀ c, text.getLast? = some c → isBlank c = false

theorem trimStart_eq_self_iff {text : List Char} :
    trimStart text = text ↔ ∀ c, text.head? = some c → isBlank c = false := by
  cases text with
  | nil => simp [trimStart]
  | cons c rest =>
      rw [trimStart, List.dropWhile_eq_self_iff]
      simp

theorem trimEnd_eq_self_iff {text : List Char} :
    trimEnd text = text ↔ ∀ c, text.getLast? = some c → isBlank c = false := by
  rw [trimEnd, List.reverse_eq_iff, ← trimStart, trimStart_eq_self_iff, List.head?_reverse]

theorem length_trimEnd_le (text : List Char) : (trimEnd text).length ≤ text.length :=
  (List.rdropWhile_prefix isBlank text).length_le

theorem trim_eq_self_iff {text : List Char} : trim text = text ↔ IsTrimmed text := by
  constructor
  · intro same
    -- No step of trimming may shorten the text.
    have start : trimStart text = text := by
      apply (List.dropWhile_suffix isBlank).eq_of_length_le
      calc text.length = (trim text).length := by rw [same]
        _ ≤ (trimStart text).length := length_trimEnd_le _
    rw [trim, start] at same
    exact ⟨trimStart_eq_self_iff.mp start, trimEnd_eq_self_iff.mp same⟩
  · intro trimmed
    rw [trim, trimStart_eq_self_iff.mpr trimmed.first, trimEnd_eq_self_iff.mpr trimmed.last]

instance (text : List Char) : Decidable (IsTrimmed text) :=
  decidable_of_iff (trim text = text) trim_eq_self_iff

theorem trim_within (text : List Char) : trim text <:+: text :=
  (List.rdropWhile_prefix isBlank _).isInfix.trans (List.dropWhile_suffix isBlank).isInfix

theorem isTrimmed_trim (text : List Char) : IsTrimmed (trim text) := by
  constructor
  · intro c head
    -- The first character is still the one at which trimming at the start stopped.
    have start : (trimStart text).head? = some c := by
      obtain ⟨removed, whole⟩ := List.rdropWhile_prefix isBlank (trimStart text)
      rw [← whole]
      exact List.mem_head?_append_of_mem_head? head
    have stops := List.head?_dropWhile_not isBlank text
    rw [← trimStart, start] at stops
    simpa using stops
  · intro c closes
    have solid : List.rdropWhile isBlank (trimStart text) ≠ [] := by
      intro empty
      rw [trim, trimEnd, ← List.rdropWhile, empty] at closes
      cases closes
    have stops := List.rdropWhile_last_not isBlank (trimStart text) solid
    rw [trim, trimEnd, ← List.rdropWhile, List.getLast?_eq_some_getLast solid,
      Option.some.injEq] at closes
    rw [← closes]
    simpa using stops

theorem trim_eq_nil_iff {text : List Char} : trim text = [] ↔ ∀ c ∈ text, isBlank c = true := by
  constructor
  · intro empty
    have start : trimStart text = [] := by
      rw [trim, trimEnd, List.reverse_eq_nil_iff, List.dropWhile_eq_nil_iff] at empty
      -- A text that is left would begin with a character that is no blank.
      cases left : trimStart text with
      | nil => rfl
      | cons c rest =>
          have blank := empty c (List.mem_reverse.mpr (left ▸ List.mem_cons_self))
          have stops := List.head?_dropWhile_not isBlank text
          rw [← trimStart, left] at stops
          simp [blank] at stops
    exact List.dropWhile_eq_nil_iff.mp start
  · intro blank
    rw [trim, trimStart, List.dropWhile_eq_nil_iff.mpr blank]
    rfl

theorem trim_cons_of_isBlank {c : Char} (blank : isBlank c = true) (text : List Char) :
    trim (c :: text) = trim text := by
  rw [trim, trimStart, List.dropWhile_cons_of_pos blank, ← trimStart, ← trim]

theorem trimEnd_append_singleton {c : Char} (blank : isBlank c = true) (text : List Char) :
    trimEnd (text ++ [c]) = trimEnd text :=
  List.rdropWhile_concat_pos isBlank text c blank

/-- Blanks around a text do not matter to trimming. -/
theorem trim_append_blanks {front back : List Char} (blankFront : ∀ c ∈ front, isBlank c = true)
    (blankBack : ∀ c ∈ back, isBlank c = true) (text : List Char) :
    trim (front ++ (text ++ back)) = trim text := by
  have start : trimStart (front ++ (text ++ back)) = trimStart (text ++ back) :=
    List.dropWhile_append_of_pos blankFront
  have stop (inner : List Char) : trimEnd (inner ++ back) = trimEnd inner := by
    rw [trimEnd, List.reverse_append, List.dropWhile_append_of_pos, ← trimEnd]
    exact fun c member => blankBack c (List.mem_reverse.mp member)
  by_cases empty : trimStart text = []
  · have blank := List.dropWhile_eq_nil_iff.mp empty
    have all : trim (text ++ back) = [] :=
      trim_eq_nil_iff.mpr (List.forall_mem_append.mpr ⟨blank, blankBack⟩)
    rw [trim, start, ← trim, all, trim_eq_nil_iff.mpr blank]
  · have kept : trimStart (text ++ back) = trimStart text ++ back := by
      rw [trimStart, List.dropWhile_append, if_neg (by simpa [trimStart] using empty), ← trimStart]
    rw [trim, start, kept, stop, ← trim]

theorem trim_map {f : Char → Char} (keeps : ∀ c, isBlank (f c) = isBlank c) (text : List Char) :
    trim (text.map f) = (trim text).map f := by
  have same : isBlank ∘ f = isBlank := funext keeps
  simp only [trim, trimEnd, trimStart, List.dropWhile_map, ← List.map_reverse, same]

theorem IsTrimmed.trim_between {text : List Char} (trimmed : IsTrimmed text) {before after : Char}
    (blankBefore : isBlank before = true) (blankAfter : isBlank after = true) :
    trim (before :: (text ++ [after])) = text := by
  rw [trim_cons_of_isBlank blankBefore]
  cases text with
  | nil =>
      rw [List.nil_append, trim_cons_of_isBlank blankAfter]
      rfl
  | cons c rest =>
      have start : trimStart (c :: rest ++ [after]) = c :: rest ++ [after] :=
        trimStart_eq_self_iff.mpr fun d head => trimmed.first d (by simpa using head)
      rw [trim, start, trimEnd_append_singleton blankAfter, trimEnd_eq_self_iff]
      exact trimmed.last

theorem isTrimmed_of_ends {text inner : List Char} {first last : Char}
    (shape : text = first :: (inner ++ [last])) (solidFirst : isBlank first = false)
    (solidLast : isBlank last = false) : IsTrimmed text := by
  subst shape
  constructor
  · intro c head
    simp only [List.head?_cons, Option.some.injEq] at head
    rw [← head]
    exact solidFirst
  · intro c closes
    rw [← List.cons_append, List.getLast?_append, List.getLast?_singleton] at closes
    simp only [Option.some_or, Option.some.injEq] at closes
    rw [← closes]
    exact solidLast

theorem IsTrimmed.append {left right : List Char} (leftTrimmed : IsTrimmed left)
    (rightTrimmed : IsTrimmed right) (leftSolid : left ≠ []) (rightSolid : right ≠ [])
    (middle : List Char) : IsTrimmed (left ++ (middle ++ right)) := by
  constructor
  · intro c head
    rw [List.head?_append_of_ne_nil _ leftSolid] at head
    exact leftTrimmed.first c head
  · intro c closes
    rw [← List.append_assoc, List.getLast?_append_of_ne_nil _ rightSolid] at closes
    exact rightTrimmed.last c closes

/-! ## Scanning -/

theorem dropWhile_append_of_ne_nil {p : Char → Bool} {text : List Char}
    (stops : text.dropWhile p ≠ []) (more : List Char) :
    (text ++ more).dropWhile p = text.dropWhile p ++ more := by
  rw [List.dropWhile_append, if_neg (by simpa using stops)]

theorem takeWhile_append_of_ne_nil {p : Char → Bool} {text : List Char}
    (stops : text.dropWhile p ≠ []) (more : List Char) :
    (text ++ more).takeWhile p = text.takeWhile p := by
  rw [List.takeWhile_append, if_neg]
  intro whole
  have parts := congrArg List.length (List.takeWhile_append_dropWhile (p := p) (l := text))
  rw [List.length_append, whole] at parts
  exact stops (List.length_eq_zero_iff.mp (by omega))

theorem takeWhile_append_cons {p : Char → Bool} {text : List Char} (all : ∀ c ∈ text, p c = true)
    {d : Char} (stops : p d = false) (rest : List Char) :
    (text ++ d :: rest).takeWhile p = text := by
  simp [List.takeWhile_append_of_pos all, stops]

theorem dropWhile_append_cons {p : Char → Bool} {text : List Char} (all : ∀ c ∈ text, p c = true)
    {d : Char} (stops : p d = false) (rest : List Char) :
    (text ++ d :: rest).dropWhile p = d :: rest := by
  simp [List.dropWhile_append_of_pos all, stops]

theorem isPrefix_takeWhile {p : Char → Bool} {part text : List Char} (all : ∀ c ∈ part, p c = true)
    (begins : part <+: text) : part <+: text.takeWhile p := by
  obtain ⟨rest, rfl⟩ := begins
  rw [List.takeWhile_append_of_pos all]
  exact List.prefix_append _ _

/-- A search for a character ends at that character. -/
theorem eq_of_dropWhile_eq_cons {c d : Char} {text rest : List Char}
    (dropped : text.dropWhile (· ≠ c) = d :: rest) : d = c := by
  have stops := List.head?_dropWhile_not (· ≠ c) text
  rw [dropped] at stops
  simpa using stops

/-! ## Skipping ASCII blanks -/

theorem skipBlanks_eq_self {text : List Char}
    (solid : ∀ c, text.head? = some c → isBlank c = false) : skipBlanks text = text := by
  cases text with
  | nil => rfl
  | cons c rest =>
      rw [skipBlanks, List.dropWhile_cons_of_neg]
      intro ascii
      have blank := isBlank_of_isAsciiBlank ascii
      rw [solid c rfl] at blank
      cases blank

theorem skipBlanks_cons_space (text : List Char) : skipBlanks (' ' :: text) = skipBlanks text :=
  List.dropWhile_cons_of_pos rfl

theorem skipBlanks_append_of_nil {text : List Char} (empty : skipBlanks text = [])
    (more : List Char) : skipBlanks (text ++ more) = skipBlanks more := by
  rw [skipBlanks] at empty
  rw [skipBlanks, List.dropWhile_append, empty]
  rfl

theorem isAsciiBlank_of_skipBlanks {text rest : List Char} {c : Char}
    (skipped : skipBlanks text = c :: rest) : isAsciiBlank c = false := by
  have head := List.head?_dropWhile_not isAsciiBlank text
  rw [← skipBlanks, skipped] at head
  simpa using head

theorem skipBlanks_idem (text : List Char) : skipBlanks (skipBlanks text) = skipBlanks text :=
  List.dropWhile_idempotent isAsciiBlank text

theorem skipBlanks_append {blanks rest : List Char} (blank : ∀ c ∈ blanks, isAsciiBlank c = true)
    (solid : skipBlanks rest = rest) : skipBlanks (blanks ++ rest) = rest :=
  (List.dropWhile_append_of_pos blank).trans solid

theorem skipBlanks_of_isPrefix {part text : List Char} (begins : part <+: skipBlanks text) :
    skipBlanks part = part := by
  cases part with
  | nil => rfl
  | cons c part =>
      obtain ⟨rest, whole⟩ := begins
      exact List.dropWhile_cons_of_neg (by simp [isAsciiBlank_of_skipBlanks whole.symm])

theorem takeWhile_append_skipBlanks (text : List Char) :
    text.takeWhile isAsciiBlank ++ skipBlanks text = text :=
  List.takeWhile_append_dropWhile

end SceneScript.Text
