import SceneScript.Proofs.Offset.Place
import SceneScript.Text.Delimiter

/-!
# Scans by offset

The scans over the bytes of a text: over a class of characters, for one character,
and for the end of a bracketed stretch. From a place of a text, each of them ends at
a place, and it finds what the same scan finds in the characters of the rest.
-/

set_option autoImplicit false

namespace SceneScript.Offset

open SceneScript.Text

/-! ## Stretches of a class -/

/-- The bytes of a class from an offset on, and the offset behind them. -/
def readWhile (p : Char → Bool) (bytes : List Char) (offset : Nat) : Checked (List Char × Nat) :=
  if offset < bytes.length then do
    let byte ← itemAt bytes offset
    if p byte then
      let (more, stop) ← readWhile p bytes (offset + 1)
      return (byte :: more, stop)
    else return ([], offset)
  else return ([], offset)
termination_by bytes.length - offset

def skipBlanks (bytes : List Char) (offset : Nat) : Checked Nat := do
  let (_, stop) ← readWhile isAsciiBlank bytes offset
  return stop

theorem readWhile_of_isPlace {text rest : List Char} {offset : Nat}
    (place : IsPlace text offset rest) {p : Char → Bool} (ascii : IsAsciiClass p) :
    readWhile p (bytes text) offset =
      .ok (rest.takeWhile p, offset + (rest.takeWhile p).length) := by
  induction rest generalizing offset with
  | nil =>
      rw [readWhile, if_neg place.not_lt_length]
      rfl
  | cons c rest ih =>
      obtain ⟨byte, found, leads⟩ := place.exists_itemAt
      rw [readWhile, if_pos place.lt_length, found, ok_bind, leads.class_eq ascii]
      by_cases member : p c = true
      · have one := ascii c member
        have same : byte = c := (leads.eq_iff one).mpr rfl
        rw [if_pos member, ih (place.succ one), List.takeWhile_cons_of_pos member, same]
        simp only [ok_bind, pure_eq_ok, List.length_cons, Nat.add_assoc, Nat.add_comm 1]
      · rw [if_neg member, List.takeWhile_cons_of_neg member]
        rfl

theorem skipBlanks_of_isPlace {text rest : List Char} {offset : Nat}
    (place : IsPlace text offset rest) :
    skipBlanks (bytes text) offset = .ok (offset + (rest.takeWhile isAsciiBlank).length) := by
  rw [skipBlanks, readWhile_of_isPlace place isAsciiClass_isAsciiBlank]
  rfl

theorem IsPlace.skipBlanks {text rest : List Char} {offset : Nat}
    (place : IsPlace text offset rest) :
    IsPlace text (offset + (rest.takeWhile isAsciiBlank).length) (Text.skipBlanks rest) :=
  place.takeWhile isAsciiClass_isAsciiBlank

/-! ## One character -/

/-- The bytes from an offset on. -/
def bytesFrom (bytes : List Char) (start : Nat) : Checked (List Char) :=
  if start ≤ bytes.length then .ok (bytes.drop start) else .error .slice

theorem bytesFrom_of_isPlace {text rest : List Char} {start : Nat}
    (place : IsPlace text start rest) : bytesFrom (bytes text) start = .ok (bytes rest) := by
  have inside : start ≤ (bytes text).length :=
    Nat.le_trans (Nat.le_add_right _ _) (Nat.le_of_eq place.add_size)
  rw [bytesFrom, if_pos inside, place.drop_bytes]

/-- The offset of the next byte of the given value. -/
def findByte (needle : Char) (bytes : List Char) (start : Nat) : Checked (Option Nat) := do
  let rest ← bytesFrom bytes start
  return (rest.findIdx? (· = needle)).map (start + ·)

theorem findIdx?_eq {α : Type} (p : α → Bool) (list : List α) :
    list.findIdx? p =
      if list.dropWhile (fun x => !p x) = [] then none
      else some (list.takeWhile fun x => !p x).length := by
  induction list with
  | nil => rfl
  | cons x list ih =>
      rw [List.findIdx?_cons, ih]
      by_cases member : p x = true
      · simp [member]
      · simp only [member, Bool.false_eq_true, if_false, Bool.not_false, List.dropWhile_cons_of_pos,
          List.takeWhile_cons_of_pos, List.length_cons]
        split <;> rfl

theorem findByte_of_isPlace {text rest : List Char} {start : Nat}
    (place : IsPlace text start rest) {needle : Char} (ascii : IsAscii needle) :
    findByte needle (bytes text) start =
      .ok (if rest.dropWhile (· ≠ needle) = [] then none
        else some (start + size (rest.takeWhile (· ≠ needle)))) := by
  have passed := takeWhile_not_bytes (isAsciiClass_eq ascii) rest
  have left := dropWhile_not_bytes (isAsciiClass_eq ascii) rest
  simp only [findByte, bytesFrom_of_isPlace place, ok_bind, pure_eq_ok, findIdx?_eq, passed, left,
    bytes_eq_nil_iff, ne_eq, decide_not, size]
  split <;> rfl

theorem IsPlace.takeUntil {text rest : List Char} {start : Nat} (place : IsPlace text start rest)
    (needle : Char) :
    IsPlace text (start + size (rest.takeWhile (· ≠ needle))) (rest.dropWhile (· ≠ needle)) := by
  apply IsPlace.add
  rwa [List.takeWhile_append_dropWhile]

/-! ## Brackets -/

/-- The offset behind the delimiter that closes the last of `depth` levels, in bytes
that start at the given offset. -/
def closeFrom (opening closing : Char) : Nat → Nat → List Char → Checked (Option Nat)
  | _, _, [] => .ok none
  | depth, offset, byte :: rest =>
    if byte = opening then closeFrom opening closing (depth + 1) (offset + 1) rest
    else if byte = closing then do
      let depth ← decrement depth
      if depth = 0 then return some (offset + 1)
      else closeFrom opening closing depth (offset + 1) rest
    else closeFrom opening closing depth (offset + 1) rest

/-- The offset behind the delimiter that closes the one at the given offset. -/
def matchingClose (opening closing : Char) (bytes : List Char) (start : Nat) :
    Checked (Option Nat) :=
  if bytes[start]? = some opening then do
    let rest ← bytesFrom bytes start
    closeFrom opening closing 0 start rest
  else return none

section
variable {opening closing : Char} (asciiOpening : IsAscii opening) (asciiClosing : IsAscii closing)
include asciiOpening asciiClosing

theorem closeFrom_encode_of_not_isAscii {c : Char} (other : ¬ IsAscii c) (depth offset : Nat)
    (rest : List Char) :
    closeFrom opening closing depth offset (encode c ++ rest) =
      closeFrom opening closing depth (offset + (encode c).length) rest := by
  refine scan_encode_of_not_isAscii (fun byte other offset rest => ?_) other offset rest
  have notOpening : byte ≠ opening := fun same => other (same ▸ asciiOpening)
  have notClosing : byte ≠ closing := fun same => other (same ▸ asciiClosing)
  rw [closeFrom, if_neg notOpening, if_neg notClosing]

/-- Inside of brackets the count never falls below zero: the search ends when it
reaches zero. -/
theorem closeFrom_bytes {depth : Nat} (isOpen : 0 < depth) (offset : Nat) (text : List Char) :
    closeFrom opening closing depth offset (bytes text) =
      .ok ((closingLength opening closing depth text).map fun count =>
        offset + size (text.take count)) := by
  induction text generalizing depth offset with
  | nil => rfl
  | cons c text ih =>
      have behind : ∀ found : Option Nat, Except.ok
            (found.map fun count => offset + (encode c).length + size (text.take count)) =
          (.ok ((found.map (· + 1)).map fun count => offset + size ((c :: text).take count)) :
            Checked (Option Nat)) := by
        intro found
        cases found with
        | none => rfl
        | some count =>
            simp only [Option.map_some, List.take_succ_cons, size_cons, Nat.add_assoc]
      by_cases ascii : IsAscii c
      · rw [encode_of_isAscii ascii, List.length_singleton] at behind
        rw [bytes_cons, encode_of_isAscii ascii, List.singleton_append, closeFrom, closingLength]
        split
        · rw [ih (Nat.succ_pos depth), behind]
        split
        · obtain ⟨depth, rfl⟩ := Nat.exists_eq_succ_of_ne_zero (Nat.ne_of_gt isOpen)
          rw [decrement_succ, ok_bind]
          split
          · rename_i last
            rw [if_pos (by omega)]
            simp [encode_of_isAscii ascii]
          · rename_i inside
            rw [ih (Nat.pos_of_ne_zero inside), behind, if_neg (by omega), Nat.succ_sub_one]
        · rw [ih isOpen, behind]
      · have notOpening : c ≠ opening := fun same => ascii (same ▸ asciiOpening)
        have notClosing : c ≠ closing := fun same => ascii (same ▸ asciiClosing)
        rw [bytes_cons, closeFrom_encode_of_not_isAscii asciiOpening asciiClosing ascii, ih isOpen,
          behind, closingLength, if_neg notOpening, if_neg notClosing]

theorem matchingClose_of_isPlace {text rest : List Char} {start : Nat}
    (place : IsPlace text start rest) :
    matchingClose opening closing (bytes text) start =
      .ok ((balanced? opening closing rest).map fun parts => start + size parts.1) := by
  rw [matchingClose, place.head?, balanced?, Text.matchingClose, ← List.head?_eq_getElem?]
  simp only [head?_bytes_eq_some_iff asciiOpening]
  by_cases opens : rest.head? = some opening
  · obtain ⟨inner, rfl⟩ := List.head?_eq_some_iff.mp opens
    -- The opening delimiter itself takes the count to one.
    have first : closingLength opening closing 0 (opening :: inner) =
        (closingLength opening closing 1 inner).map (· + 1) := by
      rw [closingLength, if_pos rfl]
    rw [if_pos opens, if_pos opens, bytesFrom_of_isPlace place, ok_bind, bytes_cons,
      encode_of_isAscii asciiOpening, List.singleton_append, closeFrom, if_pos rfl,
      closeFrom_bytes asciiOpening asciiClosing Nat.one_pos, List.drop_zero, first]
    cases closingLength opening closing 1 inner with
    | none => rfl
    | some count => simp [List.splitAt_eq, encode_of_isAscii asciiOpening, Nat.add_assoc]
  · rw [if_neg opens, if_neg opens]
    rfl

end

end SceneScript.Offset
