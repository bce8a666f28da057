import SceneScript.Expr.Lexer
import SceneScript.Proofs.Offset.Scan

/-!
# Tokens by offset

A clause is read byte by byte. Behind its end, a look ahead sees a zero byte, which
begins no token. Since tokens are ASCII, every token ends at a place, and only a
character that begins no token can be longer than a byte.
-/

set_option autoImplicit false

namespace SceneScript.Offset

open SceneScript.Text

/-! ## Single bytes -/

/-- The byte at an offset, or zero at the end. -/
def peek (bytes : List Char) (offset : Nat) : Checked Char :=
  if offset < bytes.length then itemAt bytes offset else return '\x00'

theorem exists_peek {text rest : List Char} {offset : Nat} (place : IsPlace text offset rest) :
    ∃ byte, peek (bytes text) offset = .ok byte ∧ Leads byte (rest.headD '\x00') := by
  cases rest with
  | nil =>
      exact ⟨'\x00', if_neg place.not_lt_length, .inl rfl⟩
  | cons c rest =>
      obtain ⟨byte, found, leads⟩ := place.exists_itemAt
      exact ⟨byte, by rw [peek, if_pos place.lt_length, found], leads⟩

theorem peek_isOk (bytes : List Char) (offset : Nat) : ∃ byte, peek bytes offset = .ok byte := by
  rw [peek]
  split
  · rename_i inside
    exact ⟨_, itemAt_of_getElem? (List.getElem?_eq_getElem inside)⟩
  · exact ⟨_, rfl⟩

/-- The given count of bytes from an offset on. -/
def readBytes (bytes : List Char) : Nat → Nat → Checked (List Char)
  | 0, _ => return []
  | count + 1, offset => do
    let byte ← itemAt bytes offset
    let more ← readBytes bytes count (offset + 1)
    return byte :: more

theorem readBytes_of_isPlace {text part rest : List Char} {offset : Nat}
    (place : IsPlace text offset (part ++ rest)) (ascii : ∀ c ∈ part, IsAscii c) :
    readBytes (bytes text) part.length offset = .ok part := by
  induction part generalizing offset with
  | nil => rfl
  | cons c part ih =>
      obtain ⟨first, more⟩ := List.forall_mem_cons.mp ascii
      rw [List.cons_append] at place
      obtain ⟨byte, found, leads⟩ := place.exists_itemAt
      simp only [List.length_cons, readBytes, found, (leads.eq_iff first).mpr rfl, ok_bind,
        ih (place.succ first) more, pure_eq_ok]

/-! ## Operators and parentheses -/

theorem symbol?_of_equals (first : Char) (rest : List Char) :
    Lexeme.symbol? (first :: '=' :: rest) = Lexeme.symbol? [first, '='] := by
  unfold Lexeme.symbol?
  split <;> simp_all
  all_goals grind

theorem symbol?_of_ne {second : Char} (other : second ≠ '=') (first : Char) (rest : List Char) :
    Lexeme.symbol? (first :: second :: rest) = Lexeme.symbol? [first] := by
  unfold Lexeme.symbol?
  split <;> simp_all

/-- A symbol takes no more than an equals sign behind its first character. -/
theorem symbol?_takes {first : Char} {rest : List Char} {lexeme : Lexeme} {more : Nat}
    (found : Lexeme.symbol? (first :: rest) = some (lexeme, more)) :
    more = 0 ∨ more = 1 ∧ ∃ behind, rest = '=' :: behind := by
  unfold Lexeme.symbol? at found
  split at found <;> grind

theorem isAscii_of_symbol? {first : Char} {rest : List Char} {symbol : Lexeme × Nat}
    (found : Lexeme.symbol? (first :: rest) = some symbol) : IsAscii first := by
  unfold Lexeme.symbol? at found
  split at found <;> simp_all <;> decide

theorem symbol?_of_leads {byte second first : Char} {rest : List Char} (leads : Leads byte first)
    (behind : Leads second (rest.headD '\x00')) :
    Lexeme.symbol? [byte, second] = Lexeme.symbol? (first :: rest) := by
  -- What stands second counts only as an equals sign, which a zero byte is not.
  have sameBehind : Lexeme.symbol? [byte, second] = Lexeme.symbol? (byte :: rest) := by
    have equals := behind.eq_iff (by decide : IsAscii '=')
    cases rest with
    | nil => exact symbol?_of_ne (mt equals.mp (by decide)) byte []
    | cons c rest =>
        rw [List.headD_cons] at equals
        by_cases isEquals : c = '='
        · rw [equals.mpr isEquals, isEquals, symbol?_of_equals byte rest]
        · rw [symbol?_of_ne (mt equals.mp isEquals), symbol?_of_ne isEquals]
  rw [sameBehind]
  rcases leads with rfl | ⟨otherByte, otherFirst⟩
  · rfl
  · have none : ∀ c, ¬ IsAscii c → Lexeme.symbol? (c :: rest) = none := fun c other =>
      Option.eq_none_iff_forall_ne_some.mpr fun symbol found => other (isAscii_of_symbol? found)
    rw [none byte otherByte, none first otherFirst]

/-! ## Numerals -/

/-- Digits, and a point unless there was one before. -/
def readMantissa (bytes : List Char) (pointSeen : Bool) (offset : Nat) :
    Checked (List Char × Nat) :=
  if offset < bytes.length then do
    let byte ← itemAt bytes offset
    if byte.isDigit || byte = '.' && !pointSeen then
      let (more, stop) ← readMantissa bytes (pointSeen || byte = '.') (offset + 1)
      return (byte :: more, stop)
    else return ([], offset)
  else return ([], offset)
termination_by bytes.length - offset

def isMark (c : Char) : Bool :=
  c = 'e' || c = 'E'

def isSign (c : Char) : Bool :=
  c = '+' || c = '-'

/-- The exponent at an offset. It begins with a mark and an optional sign, and it is
read only if a digit follows. -/
def readExponent (bytes : List Char) (offset : Nat) : Checked (List Char × Nat) := do
  let mark ← peek bytes offset
  let count := if bytes[offset + 1]?.any isSign then 2 else 1
  if isMark mark && bytes[offset + count]?.any Char.isDigit then
    let head ← readBytes bytes count offset
    let (digits, stop) ← readWhile Char.isDigit bytes (offset + count)
    return (head ++ digits, stop)
  else return ([], offset)

/-- The numeral whose first byte stands before the offset. -/
def readNumeral (bytes : List Char) (first : Char) (offset : Nat) : Checked (List Char × Nat) := do
  let (mantissa, offset) ← readMantissa bytes (first = '.') offset
  let (exponent, stop) ← readExponent bytes offset
  return (first :: (mantissa ++ exponent), stop)

/-- What a mantissa that has begun goes on with. -/
def mantissaRest (pointSeen : Bool) (rest : List Char) : List Char :=
  if pointSeen then rest.takeWhile Char.isDigit else Decimal.mantissaPart rest

theorem mantissaRest_cons_of_digit (pointSeen : Bool) {c : Char} (digit : c.isDigit = true)
    (rest : List Char) : mantissaRest pointSeen (c :: rest) = c :: mantissaRest pointSeen rest := by
  cases pointSeen with
  | true => simp [mantissaRest, digit]
  | false =>
      simp only [mantissaRest, Decimal.mantissaPart, Bool.false_eq_true, if_false,
        List.takeWhile_cons_of_pos digit, List.dropWhile_cons_of_pos digit]
      split <;> rfl

theorem mantissaRest_cons_of_other {pointSeen : Bool} {c : Char}
    (other : (c.isDigit || c = '.' && !pointSeen) = false) (rest : List Char) :
    mantissaRest pointSeen (c :: rest) = [] := by
  rw [Bool.or_eq_false_iff] at other
  obtain ⟨notDigit, notPoint⟩ := other
  cases pointSeen with
  | true => simp [mantissaRest, notDigit]
  | false =>
      simp only [mantissaRest, Decimal.mantissaPart, Bool.false_eq_true, if_false,
        List.takeWhile_cons_of_neg (Bool.eq_false_iff.mp notDigit),
        List.dropWhile_cons_of_neg (Bool.eq_false_iff.mp notDigit)]
      split
      · rename_i isPoint
        cases isPoint
        cases notPoint
      · rfl

/-- A byte goes on with a mantissa exactly if its character does. -/
theorem isAsciiClass_mantissa (pointSeen : Bool) :
    IsAsciiClass fun c => c.isDigit || c = '.' && !pointSeen := by
  intro c member
  simp only [Bool.or_eq_true, Bool.and_eq_true, decide_eq_true_eq] at member
  rcases member with digit | ⟨rfl, -⟩
  · exact isAsciiClass_isDigit c digit
  · decide

theorem readMantissa_of_isPlace {text rest : List Char} {offset : Nat}
    (place : IsPlace text offset rest) (pointSeen : Bool) :
    readMantissa (bytes text) pointSeen offset =
        .ok (mantissaRest pointSeen rest, offset + (mantissaRest pointSeen rest).length) ∧
      IsPlace text (offset + (mantissaRest pointSeen rest).length)
        (rest.drop (mantissaRest pointSeen rest).length) := by
  induction rest generalizing offset pointSeen with
  | nil =>
      have empty : mantissaRest pointSeen [] = [] := by cases pointSeen <;> rfl
      rw [readMantissa, if_neg place.not_lt_length, empty]
      exact ⟨rfl, place⟩
  | cons c rest ih =>
      obtain ⟨byte, found, leads⟩ := place.exists_itemAt
      rw [readMantissa, if_pos place.lt_length, found, ok_bind,
        leads.class_eq (isAsciiClass_mantissa pointSeen)]
      by_cases member : (c.isDigit || c = '.' && !pointSeen) = true
      · have ascii := isAsciiClass_mantissa pointSeen c member
        have same : byte = c := (leads.eq_iff ascii).mpr rfl
        have next : mantissaRest pointSeen (c :: rest) =
            c :: mantissaRest (pointSeen || c = '.') rest := by
          simp only [Bool.or_eq_true, Bool.and_eq_true, decide_eq_true_eq,
            Bool.not_eq_true'] at member
          rcases member with digit | ⟨rfl, rfl⟩
          · have notPoint : c ≠ '.' := by
              rintro rfl
              cases digit
            rw [mantissaRest_cons_of_digit pointSeen digit]
            simp [notPoint]
          · rfl
        obtain ⟨read, behind⟩ := ih (place.succ ascii) (pointSeen || c = '.')
        rw [Nat.add_right_comm] at read behind
        rw [if_pos member, same, read, next, List.length_cons, List.drop_succ_cons]
        exact ⟨rfl, behind⟩
      · rw [if_neg member, mantissaRest_cons_of_other (Bool.eq_false_iff.mpr member)]
        exact ⟨rfl, place⟩

theorem isAsciiClass_isSign : IsAsciiClass isSign :=
  (isAsciiClass_eq (by decide)).or (isAsciiClass_eq (by decide))

theorem isAsciiClass_isMark : IsAsciiClass isMark :=
  (isAsciiClass_eq (by decide)).or (isAsciiClass_eq (by decide))

theorem takeWhile_ne_nil_iff {p : Char → Bool} {text : List Char} :
    text.takeWhile p ≠ [] ↔ text.head?.any p = true := by
  cases text with
  | nil => simp
  | cons c text => by_cases member : p c = true <;> simp [member]

/-- A text begins with a sign or without one. -/
theorem exists_sign (rest : List Char) : ∃ sign digits,
    rest = sign ++ digits ∧ (rest.take 1).filter isSign = sign ∧ (∀ c ∈ sign, IsAscii c) ∧
      (if rest.head?.any isSign then 2 else 1) = sign.length + 1 := by
  cases rest with
  | nil => exact ⟨[], [], rfl, rfl, by simp, rfl⟩
  | cons c rest =>
      by_cases isSigned : isSign c = true
      · exact ⟨[c], rest, rfl, by simp [isSigned], by simpa using isAsciiClass_isSign c isSigned,
          by simp [isSigned]⟩
      · exact ⟨[], c :: rest, rfl, by simp [isSigned], by simp, by simp [isSigned]⟩

theorem exponentPart_of_sign {mark : Char} {sign digits : List Char}
    (filtered : ((sign ++ digits).take 1).filter isSign = sign) :
    Decimal.exponentPart (mark :: (sign ++ digits)) =
      if isMark mark && digits.head?.any Char.isDigit then
        mark :: (sign ++ digits.takeWhile Char.isDigit)
      else [] := by
  have sign' : ((sign ++ digits).take 1).filter (fun c => c = '+' || c = '-') = sign := filtered
  have some : digits.takeWhile Char.isDigit ≠ [] ↔ digits.head?.any Char.isDigit = true :=
    takeWhile_ne_nil_iff
  simp only [Decimal.exponentPart, sign', List.drop_left, some, Bool.decide_eq_true]
  exact if_congr Iff.rfl rfl rfl

theorem readExponent_of_isPlace {text rest : List Char} {offset : Nat}
    (place : IsPlace text offset rest) :
    readExponent (bytes text) offset =
        .ok (Decimal.exponentPart rest, offset + (Decimal.exponentPart rest).length) ∧
      IsPlace text (offset + (Decimal.exponentPart rest).length)
        (rest.drop (Decimal.exponentPart rest).length) := by
  obtain ⟨byte, seen, leads⟩ := exists_peek place
  rw [readExponent, seen, ok_bind, leads.class_eq isAsciiClass_isMark]
  cases rest with
  | nil => exact ⟨rfl, place⟩
  | cons mark rest =>
      rw [List.headD_cons]
      obtain ⟨sign, digits, rfl, filtered, asciiSign, count⟩ := exists_sign rest
      rw [exponentPart_of_sign filtered]
      by_cases marked : isMark mark = true
      · have behindMark := place.succ (isAsciiClass_isMark mark marked)
        have atDigits := behindMark.add
        rw [size_of_isAscii asciiSign, Nat.add_right_comm, Nat.add_assoc] at atDigits
        have asciiHead : ∀ c ∈ mark :: sign, IsAscii c :=
          List.forall_mem_cons.mpr ⟨isAsciiClass_isMark mark marked, asciiSign⟩
        have head : readBytes (bytes text) (sign.length + 1) offset = .ok (mark :: sign) :=
          readBytes_of_isPlace place asciiHead
        simp only [behindMark.head?, any_head?_bytes isAsciiClass_isSign, count, atDigits.head?,
          any_head?_bytes isAsciiClass_isDigit, marked, Bool.true_and]
        split
        · constructor
          · simp only [head, ok_bind, readWhile_of_isPlace atDigits isAsciiClass_isDigit,
              pure_eq_ok, List.length_cons, List.length_append, List.cons_append]
            simp only [Nat.add_assoc, Nat.add_comm 1]
          · apply place.drop_of_prefix
            · exact ⟨digits.dropWhile Char.isDigit, by simp⟩
            · refine List.forall_mem_cons.mpr ⟨isAsciiClass_isMark mark marked,
                List.forall_mem_append.mpr ⟨asciiSign, fun c member => ?_⟩⟩
              exact isAsciiClass_isDigit c (List.mem_takeWhile_imp member)
        · exact ⟨rfl, place⟩
      · simp only [marked, Bool.false_and, Bool.false_eq_true, if_false]
        exact ⟨rfl, place⟩

theorem isAsciiClass_numeral : IsAsciiClass fun c => c.isDigit || c = '.' :=
  isAsciiClass_isDigit.or (isAsciiClass_eq (by decide))

theorem numeral_cons {first : Char} (starts : (first.isDigit || first = '.') = true)
    (rest : List Char) :
    Decimal.numeral (first :: rest) =
      first :: (mantissaRest (first = '.') rest ++
        Decimal.exponentPart (rest.drop (mantissaRest (first = '.') rest).length)) := by
  have mantissa : Decimal.mantissaPart (first :: rest) =
      first :: mantissaRest (first = '.') rest := by
    rw [Bool.or_eq_true, decide_eq_true_eq] at starts
    rcases starts with digit | rfl
    · have notPoint : decide (first = '.') = false := by
        rw [decide_eq_false_iff_not]
        rintro rfl
        cases digit
      rw [notPoint]
      exact mantissaRest_cons_of_digit false digit rest
    · rfl
  rw [Decimal.numeral, mantissa]
  rfl

theorem readNumeral_of_isPlace {text rest : List Char} {offset : Nat}
    (place : IsPlace text offset rest) {first : Char}
    (starts : (first.isDigit || first = '.') = true) :
    readNumeral (bytes text) first offset =
        .ok (Decimal.numeral (first :: rest),
          offset + ((Decimal.numeral (first :: rest)).length - 1)) ∧
      IsPlace text (offset + ((Decimal.numeral (first :: rest)).length - 1))
        (rest.drop ((Decimal.numeral (first :: rest)).length - 1)) := by
  obtain ⟨mantissa, behindMantissa⟩ := readMantissa_of_isPlace place (first = '.')
  obtain ⟨exponent, behindExponent⟩ := readExponent_of_isPlace behindMantissa
  simp only [readNumeral, mantissa, exponent, ok_bind, pure_eq_ok]
  rw [numeral_cons starts, List.length_cons, Nat.add_sub_cancel, List.length_append,
    ← Nat.add_assoc, ← List.drop_drop]
  exact ⟨rfl, behindExponent⟩

/-! ## Lexemes -/

/-- The lexeme that starts with the given byte, if it is no symbol. -/
def wordAt (text : List Char) (first : Char) (start : Nat) :
    Checked (Except ClauseFault.Reason (Lexeme × Nat)) := do
  if first = '!' then return .error .bareBang
  else if first.isDigit || first = '.' then
    let (numeral, stop) ← readNumeral (bytes text) first (start + 1)
    match Decimal.read? numeral with
    | some value => return .ok (.number (value.toFloat false), stop)
    | none => return .error (.malformedNumber (String.ofList numeral))
  else if isWordStart first then
    let (more, stop) ← readWhile isWordChar (bytes text) (start + 1)
    return .ok (.name (String.ofList (first :: more)), stop)
  else
    -- The fault is about the whole character that starts here.
    let rest ← slice text start (size text)
    return .error (.strayCharacter (rest.headD first))

/-- The lexeme at an offset and the offset behind it. -/
def lexemeAt (text : List Char) (start : Nat) :
    Checked (Except ClauseFault.Reason (Lexeme × Nat)) := do
  let first ← itemAt (bytes text) start
  let second ← peek (bytes text) (start + 1)
  match Lexeme.symbol? [first, second] with
  | some (lexeme, more) =>
    let _ ← readBytes (bytes text) more (start + 1)
    return .ok (lexeme, start + 1 + more)
  | none => wordAt text first start

theorem exists_part_of_symbol? {first : Char} {rest : List Char} {lexeme : Lexeme} {more : Nat}
    (found : Lexeme.symbol? (first :: rest) = some (lexeme, more)) :
    ∃ part behind, rest = part ++ behind ∧ part.length = more ∧ ∀ c ∈ part, IsAscii c := by
  rcases symbol?_takes found with rfl | ⟨rfl, behind, rfl⟩
  · exact ⟨[], rest, rfl, rfl, by simp⟩
  · exact ⟨['='], behind, rfl, rfl, by simp [IsAscii]⟩

/-- The lexeme of a reader by offset is the one of the text, and it ends at a place. -/
def LexemeAgrees (text rest : List Char) (behind : Nat)
    (read : Checked (Except ClauseFault.Reason (Lexeme × Nat)))
    (longest : Except ClauseFault.Reason (Lexeme × Nat)) : Prop :=
  read = .ok (longest.map fun found => (found.1, behind + found.2)) ∧
    ∀ lexeme more, longest = .ok (lexeme, more) → IsPlace text (behind + more) (rest.drop more)

theorem LexemeAgrees.error {text rest : List Char} {behind : Nat} (reason : ClauseFault.Reason) :
    LexemeAgrees text rest behind (.ok (.error reason)) (.error reason) :=
  ⟨rfl, fun _ _ found => nomatch found⟩

theorem LexemeAgrees.ok {text rest : List Char} {behind more : Nat} (lexeme : Lexeme)
    (place : IsPlace text (behind + more) (rest.drop more)) :
    LexemeAgrees text rest behind (.ok (.ok (lexeme, behind + more))) (.ok (lexeme, more)) := by
  refine ⟨rfl, ?_⟩
  rintro _ _ ⟨⟩
  exact place

theorem wordAt_agrees {text rest : List Char} {first : Char} {start : Nat}
    (place : IsPlace text start (first :: rest)) (behind : IsPlace text (start + 1) rest)
    (noSymbol : Lexeme.symbol? (first :: rest) = none) :
    LexemeAgrees text rest (start + 1) (wordAt text first start) (Lexeme.longest first rest) := by
  simp only [wordAt, Lexeme.longest, noSymbol]
  by_cases bang : first = '!'
  · simp only [if_pos bang]
    exact .error _
  by_cases numeral : (first.isDigit || first = '.') = true
  · obtain ⟨read, afterNumeral⟩ := readNumeral_of_isPlace behind numeral
    simp only [if_neg bang, if_pos numeral, read, ok_bind]
    cases Decimal.read? (Decimal.numeral (first :: rest)) with
    | none => exact .error _
    | some value => exact .ok _ afterNumeral
  by_cases word : isWordStart first = true
  · have afterWord := behind.drop_of_prefix (List.takeWhile_prefix isWordChar) fun c member =>
      isAsciiClass_isWordChar c (List.mem_takeWhile_imp member)
    simp only [if_neg bang, if_neg numeral, if_pos word,
      readWhile_of_isPlace behind isAsciiClass_isWordChar, ok_bind]
    exact .ok _ afterWord
  · simp only [if_neg bang, if_neg numeral, if_neg word, place.slice_rest, ok_bind]
    exact .error _

/-- A character that is not ASCII begins no token. The byte behind its first byte may
belong to it, so it is no place. -/
theorem lexemeAt_of_not_isAscii {text rest : List Char} {first : Char} {start : Nat}
    (place : IsPlace text start (first :: rest)) (other : ¬ IsAscii first) :
    LexemeAgrees text rest (start + 1) (lexemeAt text start) (Lexeme.longest first rest) := by
  obtain ⟨byte, read, leads⟩ := place.exists_itemAt
  obtain ⟨second, seen⟩ := peek_isOk (bytes text) (start + 1)
  have otherByte : ¬ IsAscii byte := by
    rcases leads with rfl | ⟨otherByte, -⟩
    · exact other
    · exact otherByte
  have stray : ∀ c, ¬ IsAscii c → ∀ behind, Lexeme.symbol? (c :: behind) = none ∧ c ≠ '!' ∧
      (c.isDigit || c = '.') = false ∧ isWordStart c = false := fun c other behind =>
    ⟨Option.eq_none_iff_forall_ne_some.mpr fun symbol found => other (isAscii_of_symbol? found),
      fun same => other (same ▸ by decide), isAsciiClass_numeral.eq_false other,
      isAsciiClass_isWordStart.eq_false other⟩
  obtain ⟨noSymbol, notBang, notNumeral, notWord⟩ := stray byte otherByte [second]
  obtain ⟨noSymbol', notBang', notNumeral', notWord'⟩ := stray first other rest
  simp only [lexemeAt, wordAt, Lexeme.longest, read, seen, ok_bind, noSymbol, notBang, notNumeral,
    notWord, noSymbol', notBang', notNumeral', notWord', Bool.false_eq_true, if_false,
    place.slice_rest]
  exact .error _

theorem lexemeAt_agrees {text rest : List Char} {first : Char} {start : Nat}
    (place : IsPlace text start (first :: rest)) :
    LexemeAgrees text rest (start + 1) (lexemeAt text start) (Lexeme.longest first rest) := by
  by_cases ascii : IsAscii first
  · obtain ⟨byte, read, leads⟩ := place.exists_itemAt
    cases (leads.eq_iff ascii).mpr rfl
    have behind := place.succ ascii
    obtain ⟨second, seen, leadsSecond⟩ := exists_peek behind
    simp only [lexemeAt, read, seen, ok_bind, symbol?_of_leads (.inl rfl) leadsSecond]
    cases found : Lexeme.symbol? (first :: rest) with
    | none => exact wordAt_agrees place behind found
    | some symbol =>
        obtain ⟨lexeme, more⟩ := symbol
        obtain ⟨part, after, rfl, rfl, asciiPart⟩ := exists_part_of_symbol? found
        simp only [readBytes_of_isPlace behind asciiPart, ok_bind, Lexeme.longest, found]
        exact .ok _ (behind.drop_of_prefix (List.prefix_append part after) asciiPart)
  · exact lexemeAt_of_not_isAscii place ascii

/-! ## Tokens -/

/-- A token, or the end of a clause if there is no lexeme. -/
structure Item where
  lexeme : Option Lexeme
  column : Nat

/-- The tokens of a clause with an item for its end behind them. -/
def items (tokens : Tokens) : List Item :=
  (tokens.list.map fun token => ⟨some token.lexeme, token.column⟩) ++ [⟨none, tokens.endColumn⟩]

/-- The items of a clause from an offset on. -/
def itemsFrom (text : List Char) (offset : Nat) : Checked (Except ClauseFault (List Item)) := do
  let start ← skipBlanks (bytes text) offset
  if start < size text then
    match ← lexemeAt text start with
    | .error reason => return .error ⟨start + 1, reason⟩
    | .ok (lexeme, stop) =>
      if _advances : offset < stop ∧ stop ≤ size text then
        match ← itemsFrom text stop with
        | .error fault => return .error fault
        | .ok more => return .ok (⟨some lexeme, start + 1⟩ :: more)
      else .error .stuck
  else return .ok [⟨none, start + 1⟩]
termination_by size text - offset

theorem itemsFrom_of_lexeme {text rest : List Char} {first : Char} {offset start more : Nat}
    {lexeme : Lexeme} (skipped : skipBlanks (bytes text) offset = .ok start)
    (later : offset ≤ start)
    (place : IsPlace text start (first :: rest))
    (found : Lexeme.longest first rest = .ok (lexeme, more)) :
    itemsFrom text offset = do
      match ← itemsFrom text (start + 1 + more) with
      | .error fault => return .error fault
      | .ok items => return .ok (⟨some lexeme, start + 1⟩ :: items) := by
  obtain ⟨read, behind⟩ := lexemeAt_agrees place
  have sizes := (behind lexeme more found).add_size
  have inside : start < size text := place.lt_length
  have advances : offset < start + 1 + more ∧ start + 1 + more ≤ size text := by omega
  rw [found] at read
  rw [itemsFrom, skipped, ok_bind, if_pos inside, read, ok_bind]
  simp only [Except.map, dif_pos advances]

theorem itemsFrom_of_isPlace {text rest : List Char} {offset : Nat}
    (place : IsPlace text offset rest) :
    itemsFrom text offset = .ok ((Tokens.readFrom (offset + 1) rest).map items) := by
  generalize starts : offset + 1 = column
  fun_induction Tokens.readFrom column rest generalizing offset
  case case1 column rest start empty =>
    have ended := mt place.skipBlanks.lt_size_iff.mp (not_not.mpr empty)
    rw [itemsFrom, skipBlanks_of_isPlace place, ok_bind, if_neg ended, Nat.add_right_comm, starts]
    rfl
  case case2 column rest start first more skipped reason failed =>
    have atFirst := place.skipBlanks
    rw [skipped] at atFirst
    have inside : _ < size text := atFirst.lt_length
    rw [itemsFrom, skipBlanks_of_isPlace place, ok_bind, if_pos inside,
      (lexemeAt_agrees atFirst).1, failed, Nat.add_right_comm, starts]
    rfl
  case case3 column rest start first behind skipped lexeme more found fault failed ih =>
    have atFirst := place.skipBlanks
    rw [skipped] at atFirst
    have after := (lexemeAt_agrees atFirst).2 lexeme more found
    rw [itemsFrom_of_lexeme (skipBlanks_of_isPlace place) (Nat.le_add_right _ _) atFirst found,
      ih after (by omega), failed]
    rfl
  case case4 column rest start first behind skipped lexeme more found tokens read ih =>
    have atFirst := place.skipBlanks
    rw [skipped] at atFirst
    have after := (lexemeAt_agrees atFirst).2 lexeme more found
    rw [itemsFrom_of_lexeme (skipBlanks_of_isPlace place) (Nat.le_add_right _ _) atFirst found,
      ih after (by omega), read, Nat.add_right_comm, starts]
    rfl

/-- The items of a clause. -/
def readItems (text : List Char) : Checked (Except ClauseFault (List Item)) :=
  itemsFrom text 0

theorem readItems_eq_ok (text : List Char) :
    readItems text = .ok ((Tokens.read text).map items) :=
  itemsFrom_of_isPlace (isPlace_zero text)

end SceneScript.Offset
