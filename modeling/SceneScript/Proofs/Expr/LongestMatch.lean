import SceneScript.Proofs.Decimal.Numeral
import SceneScript.Proofs.Expr.Names
import SceneScript.Proofs.Offset.Lexer

/-!
# The longest lexeme

What a lexeme is written as is stated apart from the lexer. A text has tokens exactly if
blanks and longest lexemes follow each other up to its end, and then the tokens are these
lexemes, each in the column of its first byte.
-/

set_option autoImplicit false

namespace SceneScript

open SceneScript.Text
open SceneScript.Offset (size)

/-- The written forms of the lexemes. -/
inductive Spells : List Char → Lexeme → Prop where
  | operator (op : BinaryOp) : Spells op.symbol.toList (.operator op)
  | assign : Spells ['='] .assign
  | opening : Spells ['('] .opening
  | closing : Spells [')'] .closing
  | name {text : List Char} : IsName text → Spells text (.name (String.ofList text))
  | number {text : List Char} {value : Decimal} :
      Decimal.IsNumeral text value → Spells text (.number (value.toFloat false))

/-- No lexeme at the start of the text is longer than the part. -/
def IsLongest (part text : List Char) : Prop :=
  ∀ other lexeme, other <+: text → Spells other lexeme → other.length ≤ part.length

/-- The tokens of a text that stands behind another one. -/
inductive Lexes : (before text : List Char) → List Token → Prop where
  | done {before blanks : List Char} :
      (∀ c ∈ blanks, isAsciiBlank c = true) → Lexes before blanks []
  | next {before blanks part rest : List Char} {lexeme : Lexeme} {tokens : List Token} :
      (∀ c ∈ blanks, isAsciiBlank c = true) → Spells part lexeme → IsLongest part (part ++ rest) →
      Lexes (before ++ blanks ++ part) rest tokens →
      Lexes before (blanks ++ (part ++ rest)) (⟨lexeme, 1 + size (before ++ blanks)⟩ :: tokens)

/-! ## Characters of a lexeme -/

theorem Spells.isAscii {part : List Char} {lexeme : Lexeme} (spelled : Spells part lexeme) :
    ∀ c ∈ part, Offset.IsAscii c := by
  cases spelled with
  | operator op => cases op <;> simp [BinaryOp.symbol, Offset.IsAscii]
  | assign => simp [Offset.IsAscii]
  | opening => simp [Offset.IsAscii]
  | closing => simp [Offset.IsAscii]
  | name named => exact fun c member => Offset.isAsciiClass_isWordChar c (named.isWordChar c member)
  | number form =>
      intro c member
      rw [← form.numeral_self] at member
      have numeral := Decimal.isNumeralChar_of_mem_numeral c member
      simp only [Decimal.isNumeralChar, Bool.or_eq_true, decide_eq_true_eq] at numeral
      rcases numeral with digit | other
      · exact Offset.isAsciiClass_isDigit c digit
      · have marks : ∀ c ∈ ['.', 'e', 'E', '+', '-'], Offset.IsAscii c := by simp [Offset.IsAscii]
        exact marks c other

theorem not_numeral_of_isWordStart {c : Char} (word : isWordStart c = true) :
    (c.isDigit || c = '.') = false := by
  have letters : c.isAlpha = (decide (c.val ≥ 65 ∧ c.val ≤ 90) || c.val ≥ 97 && c.val ≤ 122) := rfl
  rw [Bool.eq_false_iff]
  intro numeral
  simp only [Char.isDigit, Bool.or_eq_true, Bool.and_eq_true, decide_eq_true_eq, ge_iff_le,
    UInt32.le_iff_toNat_le] at numeral
  simp only [isWordStart, letters, Bool.or_eq_true, Bool.and_eq_true, decide_eq_true_eq, ge_iff_le,
    UInt32.le_iff_toNat_le, UInt32.reduceToNat] at word
  rcases numeral with digit | rfl
  · have code : 48 ≤ c.val.toNat ∧ c.val.toNat ≤ 57 := digit
    rcases word with (letter | letter) | rfl
    · omega
    · omega
    · exact absurd code (by decide)
  · exact absurd word (by decide)

theorem Spells.exists_cons {part : List Char} {lexeme : Lexeme} (spelled : Spells part lexeme) :
    ∃ first rest, part = first :: rest ∧ isAsciiBlank first = false := by
  cases spelled with
  | operator op => cases op <;> exact ⟨_, _, rfl, rfl⟩
  | assign => exact ⟨'=', [], rfl, rfl⟩
  | opening => exact ⟨'(', [], rfl, rfl⟩
  | closing => exact ⟨')', [], rfl, rfl⟩
  | name named =>
      cases part with
      | nil => exact named.elim
      | cons first rest =>
          exact ⟨first, rest, rfl, isAsciiBlank_of_isWordChar (isWordChar_of_isWordStart named.1)⟩
  | number form =>
      obtain ⟨first, rest, rfl, starts⟩ := form.exists_cons
      rw [Bool.or_eq_true, decide_eq_true_eq] at starts
      rcases starts with digit | rfl
      · have word : isWordChar first = true := by simp [isWordChar, Char.isAlphanum, digit]
        exact ⟨first, rest, rfl, isAsciiBlank_of_isWordChar word⟩
      · exact ⟨'.', rest, rfl, rfl⟩

/-! ## One lexeme -/

theorem Lexeme.head?_of_symbol? {text : List Char} {symbol : Lexeme × Nat}
    (found : Lexeme.symbol? text = some symbol) :
    ∃ c ∈ ['=', '!', '<', '>', '+', '-', '*', '/', '%', '(', ')'], text.head? = some c := by
  unfold Lexeme.symbol? at found
  split at found
  case h_15 => cases found
  all_goals exact ⟨_, by decide, rfl⟩

section
variable {first : Char} (rest : List Char)

theorem Lexeme.symbol?_eq_none
    (other : isWordStart first = true ∨ (first.isDigit || first = '.') = true) :
    Lexeme.symbol? (first :: rest) = none ∧ first ≠ '!' := by
  have starts : ['=', '!', '<', '>', '+', '-', '*', '/', '%', '(', ')'].all
      (fun c => !(isWordStart c || (c.isDigit || c = '.'))) = true := by decide
  have notSymbol : first ∉ ['=', '!', '<', '>', '+', '-', '*', '/', '%', '(', ')'] := by
    intro member
    have neither := List.all_eq_true.mp starts first member
    rcases other with word | numeral
    · simp [word] at neither
    · simp [numeral] at neither
  constructor
  · refine Option.eq_none_iff_forall_ne_some.mpr fun symbol found => ?_
    obtain ⟨c, member, head⟩ := Lexeme.head?_of_symbol? found
    cases head
    exact notSymbol member
  · rintro rfl
    exact notSymbol (by decide)

theorem Lexeme.longest_of_isWordStart (word : isWordStart first = true) :
    Lexeme.longest first rest =
      .ok (.name (String.ofList (first :: leadingWord rest)), (leadingWord rest).length) := by
  obtain ⟨noSymbol, notBang⟩ := Lexeme.symbol?_eq_none rest (.inl word)
  have notNumeral := not_numeral_of_isWordStart word
  simp only [Lexeme.longest, noSymbol, notBang, notNumeral, word, Bool.false_eq_true, if_false,
    if_true]

theorem Lexeme.longest_of_numeral (starts : (first.isDigit || first = '.') = true) {value : Decimal}
    (found : Decimal.read? (Decimal.numeral (first :: rest)) = some value) :
    Lexeme.longest first rest =
      .ok (.number (value.toFloat false), (Decimal.numeral (first :: rest)).length - 1) := by
  obtain ⟨noSymbol, notBang⟩ := Lexeme.symbol?_eq_none rest (.inr starts)
  simp only [Lexeme.longest, noSymbol, notBang, starts, found, if_false, if_true]

end

/-- What is found takes at least the part. If it takes no more, it is the lexeme of the part. -/
def Lexeme.Covers (part : List Char) (lexeme : Lexeme) (found : Lexeme × Nat) : Prop :=
  part.length ≤ found.2 + 1 ∧ (part.length = found.2 + 1 → found.1 = lexeme)

theorem Lexeme.covers_symbol?_equals {first : Char} {lexeme : Lexeme}
    (single : Lexeme.symbol? [first] = some (lexeme, 0)) :
    ∃ found, Lexeme.symbol? [first, '='] = some found ∧ Lexeme.Covers [first] lexeme found := by
  obtain ⟨c, member, head⟩ := Lexeme.head?_of_symbol? single
  cases head
  simp only [List.mem_cons, List.not_mem_nil, or_false] at member
  rcases member with rfl | rfl | rfl | rfl | rfl | rfl | rfl | rfl | rfl | rfl | rfl
  all_goals cases single
  all_goals exact ⟨_, rfl, by simp [Lexeme.Covers]⟩

/-- A symbol is found whatever follows it, unless it begins a longer one. -/
theorem Lexeme.covers_symbol?_append {part : List Char} {lexeme : Lexeme}
    (whole : Lexeme.symbol? part = some (lexeme, part.length - 1)) (behind : List Char) :
    ∃ found, Lexeme.symbol? (part ++ behind) = some found ∧ Lexeme.Covers part lexeme found := by
  cases part with
  | nil => cases whole
  | cons first rest =>
      rcases Offset.symbol?_takes whole with single | ⟨double, after, rfl⟩
      · obtain rfl : rest = [] := by simpa using single
        cases behind with
        | nil => exact ⟨_, whole, Nat.le_refl 1, fun _ => rfl⟩
        | cons second behind =>
            rw [List.singleton_append]
            by_cases equals : second = '='
            · rw [equals, Offset.symbol?_of_equals]
              exact Lexeme.covers_symbol?_equals whole
            · rw [Offset.symbol?_of_ne equals]
              exact ⟨_, whole, Nat.le_refl 1, fun _ => rfl⟩
      · obtain rfl : after = [] := by simpa using double
        rw [List.cons_append, List.singleton_append, Offset.symbol?_of_equals]
        exact ⟨_, whole, Nat.le_refl 2, fun _ => rfl⟩

theorem Spells.covers_longest {part rest : List Char} {first : Char} {lexeme : Lexeme}
    (spelled : Spells part lexeme) (begins : part <+: first :: rest) :
    ∃ found, Lexeme.longest first rest = .ok found ∧ Lexeme.Covers part lexeme found := by
  have symbol (whole : Lexeme.symbol? part = some (lexeme, part.length - 1)) :
      ∃ found, Lexeme.longest first rest = .ok found ∧ Lexeme.Covers part lexeme found := by
    obtain ⟨behind, text⟩ := begins
    obtain ⟨found, symbol, covers⟩ := Lexeme.covers_symbol?_append whole behind
    rw [text] at symbol
    exact ⟨found, by rw [Lexeme.longest, symbol], covers⟩
  cases spelled with
  | operator op => exact symbol (by cases op <;> rfl)
  | assign => exact symbol rfl
  | opening => exact symbol rfl
  | closing => exact symbol rfl
  | name named =>
      cases part with
      | nil => exact named.elim
      | cons c word =>
          obtain ⟨rfl, behind⟩ := List.cons_prefix_cons.mp begins
          have short : word <+: leadingWord rest := isPrefix_takeWhile named.2 behind
          refine ⟨_, Lexeme.longest_of_isWordStart rest named.1,
            Nat.succ_le_succ short.length_le, ?_⟩
          intro same
          rw [short.eq_of_length (Nat.succ.inj same)]
  | number form =>
      obtain ⟨c, digits, rfl, starts⟩ := form.exists_cons
      obtain ⟨rfl, -⟩ := List.cons_prefix_cons.mp begins
      have short := form.length_le begins
      obtain ⟨number, found⟩ := form.exists_longest begins
      have filled : (Decimal.numeral (c :: rest)).length - 1 + 1 =
          (Decimal.numeral (c :: rest)).length :=
        Nat.sub_add_cancel (Nat.le_trans (Nat.succ_pos _) short)
      refine ⟨_, Lexeme.longest_of_numeral rest starts found.read?_eq, filled.symm ▸ short, ?_⟩
      intro same
      have whole : c :: digits = Decimal.numeral (c :: rest) :=
        (List.prefix_of_prefix_length_le begins (Decimal.numeral_isPrefix _) short).eq_of_length
          (same.trans filled)
      rw [← whole] at found
      rw [found.unique form]

theorem Spells.of_symbol? {text : List Char} {lexeme : Lexeme} {more : Nat}
    (found : Lexeme.symbol? text = some (lexeme, more)) : Spells (text.take (more + 1)) lexeme := by
  unfold Lexeme.symbol? at found
  split at found <;> cases found
  · exact .operator .eq
  · exact .operator .ne
  · exact .operator .le
  · exact .operator .ge
  · exact .assign
  · exact .operator .lt
  · exact .operator .gt
  · exact .operator .add
  · exact .operator .sub
  · exact .operator .mul
  · exact .operator .div
  · exact .operator .rem
  · exact .opening
  · exact .closing

theorem Spells.of_longest {first : Char} {rest : List Char} {lexeme : Lexeme} {more : Nat}
    (found : Lexeme.longest first rest = .ok (lexeme, more)) :
    Spells (first :: rest.take more) lexeme ∧ more ≤ rest.length := by
  unfold Lexeme.longest at found
  split at found
  · rename_i symbol
    cases found
    obtain ⟨part, behind, rfl, rfl, -⟩ := Offset.exists_part_of_symbol? symbol
    exact ⟨.of_symbol? symbol, by simp⟩
  split at found
  · cases found
  split at found
  · rename_i starts
    simp only at found
    split at found
    · rename_i value read
      cases found
      have form := Decimal.isNumeral_of_read? read
      have begins := Decimal.numeral_isPrefix (first :: rest)
      obtain ⟨c, digits, whole, -⟩ := form.exists_cons
      rw [whole] at form begins ⊢
      obtain ⟨rfl, behind⟩ := List.cons_prefix_cons.mp begins
      rw [List.length_cons, Nat.add_sub_cancel, ← List.prefix_iff_eq_take.mp behind]
      exact ⟨.number form, behind.length_le⟩
    · cases found
  split at found
  · rename_i word
    cases found
    have begins : leadingWord rest <+: rest := List.takeWhile_prefix _
    rw [← List.prefix_iff_eq_take.mp begins]
    exact ⟨.name ⟨word, fun c member => List.mem_takeWhile_imp member⟩, begins.length_le⟩
  · cases found

theorem Lexeme.isLongest_of_longest {first : Char} {rest : List Char} {lexeme : Lexeme} {more : Nat}
    (found : Lexeme.longest first rest = .ok (lexeme, more)) :
    IsLongest (first :: rest.take more) (first :: rest) := by
  intro other otherLexeme begins spelled
  obtain ⟨_, again, longer, -⟩ := spelled.covers_longest begins
  rw [found] at again
  cases again
  rw [List.length_cons, List.length_take_of_le (Spells.of_longest found).2]
  exact longer

theorem Spells.longest_eq {first : Char} {word rest : List Char} {lexeme : Lexeme}
    (spelled : Spells (first :: word) lexeme)
    (longest : IsLongest (first :: word) (first :: (word ++ rest))) :
    Lexeme.longest first (word ++ rest) = .ok (lexeme, word.length) := by
  have begins : first :: word <+: first :: (word ++ rest) := List.prefix_append (first :: word) rest
  obtain ⟨⟨found, more⟩, taken, longer, same⟩ := spelled.covers_longest begins
  obtain ⟨spelledFound, inside⟩ := Spells.of_longest taken
  have shorter := longest _ found (List.take_prefix (more + 1) _) spelledFound
  have whole : word.length = more := by
    simp only [List.take_succ_cons, List.length_cons, List.length_take_of_le inside] at shorter
    exact Nat.le_antisymm (Nat.le_of_succ_le_succ longer) (Nat.le_of_succ_le_succ shorter)
  cases same (congrArg (· + 1) whole)
  rw [whole]
  exact taken

/-! ## All lexemes -/

theorem column_blanks (before : List Char) {blanks : List Char}
    (blank : ∀ c ∈ blanks, isAsciiBlank c = true) :
    1 + size (before ++ blanks) = 1 + size before + blanks.length := by
  have ascii : ∀ c ∈ blanks, Offset.IsAscii c :=
    fun c member => Offset.isAsciiClass_isAsciiBlank c (blank c member)
  rw [Offset.size_append, Offset.size_of_isAscii ascii, Nat.add_assoc]

theorem Spells.column {part : List Char} {lexeme : Lexeme} (spelled : Spells part lexeme)
    (before : List Char) : 1 + size (before ++ part) = 1 + size before + part.length := by
  rw [Offset.size_append, Offset.size_of_isAscii spelled.isAscii, Nat.add_assoc]

theorem Tokens.readFrom_of_nil (column : Nat) {text : List Char} (ended : skipBlanks text = []) :
    Tokens.readFrom column text =
      .ok ⟨[], column + (text.takeWhile isAsciiBlank).length⟩ := by
  rw [Tokens.readFrom]
  split
  · rfl
  · rename_i first rest skipped
    rw [ended] at skipped
    cases skipped

theorem Tokens.readFrom_of_cons (column : Nat) {text rest : List Char} {first : Char}
    (skipped : skipBlanks text = first :: rest) :
    Tokens.readFrom column text =
      match Lexeme.longest first rest with
      | .error reason => .error ⟨column + (text.takeWhile isAsciiBlank).length, reason⟩
      | .ok (lexeme, more) =>
        (Tokens.readFrom (column + (text.takeWhile isAsciiBlank).length + 1 + more)
          (rest.drop more)).map
          (Tokens.push ⟨lexeme, column + (text.takeWhile isAsciiBlank).length⟩) := by
  rw [Tokens.readFrom]
  split
  · rename_i ended
    rw [skipped] at ended
    cases ended
  · rename_i c behind found
    rw [skipped] at found
    cases found
    cases Lexeme.longest first rest with
    | error reason => rfl
    | ok found =>
        simp only
        cases Tokens.readFrom _ (rest.drop found.2) <;> rfl

theorem Tokens.readFrom_of_longest (column : Nat) {blanks rest : List Char} {first : Char}
    {lexeme : Lexeme} {more : Nat} (blank : ∀ c ∈ blanks, isAsciiBlank c = true)
    (solid : isAsciiBlank first = false)
    (found : Lexeme.longest first rest = .ok (lexeme, more)) :
    Tokens.readFrom column (blanks ++ first :: rest) =
      (Tokens.readFrom (column + blanks.length + 1 + more) (rest.drop more)).map
        (Tokens.push ⟨lexeme, column + blanks.length⟩) := by
  rw [Tokens.readFrom_of_cons column (dropWhile_append_cons blank solid rest), found,
    takeWhile_append_cons blank solid rest]

theorem Tokens.lexes_of_readFrom {column : Nat} {before text : List Char} {tokens : Tokens}
    (starts : column = 1 + size before) (read : Tokens.readFrom column text = .ok tokens) :
    Lexes before text tokens.list ∧ tokens.endColumn = 1 + size (before ++ text) := by
  fun_induction Tokens.readFrom column text generalizing before tokens
  case case1 column text start empty =>
    cases read
    have blank : ∀ c ∈ text, isAsciiBlank c = true := List.dropWhile_eq_nil_iff.mp empty
    have ends : start = 1 + size (before ++ text) := by
      rw [column_blanks before blank, ← starts]
      simp only [start, List.takeWhile_eq_self_iff.mpr blank]
    exact ⟨.done blank, ends⟩
  case case2 => cases read
  case case3 => cases read
  case case4 column text start first rest skipped lexeme more found others behind ih =>
    cases read
    have layout := takeWhile_append_skipBlanks text
    have blank : ∀ c ∈ text.takeWhile isAsciiBlank, isAsciiBlank c = true :=
      fun c member => List.mem_takeWhile_imp member
    have place : start = 1 + size (before ++ text.takeWhile isAsciiBlank) := by
      rw [column_blanks before blank, ← starts]
    obtain ⟨spelled, inside⟩ := Spells.of_longest found
    have longest := Lexeme.isLongest_of_longest found
    have next : start + 1 + more =
        1 + size (before ++ text.takeWhile isAsciiBlank ++ first :: rest.take more) := by
      rw [spelled.column, ← place, List.length_cons, List.length_take_of_le inside]
      omega
    obtain ⟨lexes, ends⟩ := ih next behind
    have parts : first :: rest.take more ++ rest.drop more = first :: rest :=
      congrArg (first :: ·) (List.take_append_drop more rest)
    rw [← parts] at longest
    have all := Lexes.next blank spelled longest lexes
    rw [parts, ← skipped, layout, ← place] at all
    rw [List.append_assoc, List.append_assoc, parts, ← skipped, layout] at ends
    exact ⟨all, ends⟩

theorem Lexes.readFrom_eq {before text : List Char} {tokens : List Token}
    (lexes : Lexes before text tokens) :
    Tokens.readFrom (1 + size before) text = .ok ⟨tokens, 1 + size (before ++ text)⟩ := by
  induction lexes with
  | @done before blanks blank =>
      rw [Tokens.readFrom_of_nil _ (List.dropWhile_eq_nil_iff.mpr blank),
        List.takeWhile_eq_self_iff.mpr blank, column_blanks before blank]
  | @next before blanks part rest lexeme tokens blank spelled longest more ih =>
      obtain ⟨first, word, rfl, solid⟩ := spelled.exists_cons
      have place := column_blanks before blank
      have next : 1 + size (before ++ blanks) + 1 + word.length =
          1 + size (before ++ blanks ++ first :: word) := by
        rw [spelled.column, List.length_cons]
        omega
      rw [List.cons_append, Tokens.readFrom_of_longest _ blank solid (spelled.longest_eq longest),
        List.drop_left, ← place, next, ih]
      simp only [Except.map, Tokens.push, List.append_assoc, List.cons_append]

/-- A text is read into tokens exactly if it is made of blanks and lexemes, each of which
is the longest one at its place. Every token has the column of its first byte, and the
column behind the last byte is the end column. -/
theorem Tokens.read_eq_ok_iff_lexes (text : List Char) (tokens : Tokens) :
    Tokens.read text = .ok tokens ↔
      Lexes [] text tokens.list ∧ tokens.endColumn = 1 + size text := by
  constructor
  · intro read
    exact Tokens.lexes_of_readFrom rfl read
  · intro ⟨lexes, ends⟩
    have read := lexes.readFrom_eq
    rw [List.nil_append, ← ends] at read
    exact read

end SceneScript
