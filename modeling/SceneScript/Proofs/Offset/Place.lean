import Mathlib.Data.List.TakeWhile
import SceneScript.Text.Blank
import SceneScript.Text.Word

/-!
# Places in a text

Offsets count the bytes of a text in UTF-8. An offset is a place of the text if it
stands between two characters. Parts are taken out of a text between two places, and
every access is checked: a wrong offset is a trap and never a default value.

Scans look at bytes. The characters that they look for are ASCII, so each of them is
one byte, and no byte of any other character is mistaken for it.
-/

set_option autoImplicit false

namespace SceneScript.Offset

open SceneScript.Text

/-- What can be wrong with a step of a reader that counts by hand. -/
inductive Trap where
  /-- A part that ends before it starts, or with an end that is no place. -/
  | slice
  /-- An element behind the end of a list. -/
  | index
  /-- A count below zero. -/
  | negative
  /-- A number that does not fit into its bits. -/
  | overflow
  /-- A loop or recursion that does not advance. -/
  | stuck
deriving Repr, DecidableEq

abbrev Checked := Except Trap

section
variable {α β : Type}

@[simp] theorem pure_eq_ok (a : α) : (pure a : Checked α) = .ok a := rfl

@[simp] theorem ok_bind (a : α) (next : α → Checked β) : (Except.ok a >>= next) = next a := rfl

/-- The element at an index. -/
def itemAt (list : List α) (index : Nat) : Checked α :=
  match list[index]? with
  | none => .error .index
  | some item => .ok item

theorem itemAt_of_getElem? {list : List α} {index : Nat} {item : α}
    (found : list[index]? = some item) : itemAt list index = .ok item := by
  rw [itemAt, found]

/-- One less. -/
def decrement : Nat → Checked Nat
  | 0 => .error .negative
  | count + 1 => .ok count

@[simp] theorem decrement_succ (count : Nat) : decrement (count + 1) = .ok count := rfl

end

/-! ## Bytes -/

/-- The bytes of a character in UTF-8, each as the character with the same number. -/
def encode (c : Char) : List Char :=
  (String.utf8EncodeChar c).map Char.ofUInt8

def bytes (text : List Char) : List Char :=
  text.flatMap encode

def size (text : List Char) : Nat :=
  (bytes text).length

@[simp] theorem bytes_nil : bytes [] = [] := rfl

@[simp] theorem bytes_cons (c : Char) (text : List Char) :
    bytes (c :: text) = encode c ++ bytes text :=
  List.flatMap_cons

@[simp] theorem bytes_append (left right : List Char) :
    bytes (left ++ right) = bytes left ++ bytes right :=
  List.flatMap_append

@[simp] theorem size_nil : size [] = 0 := rfl

@[simp] theorem size_cons (c : Char) (text : List Char) :
    size (c :: text) = (encode c).length + size text := by
  simp [size]

@[simp] theorem size_append (left right : List Char) :
    size (left ++ right) = size left + size right := by
  simp [size]

def IsAscii (c : Char) : Prop :=
  c.toNat < 128

instance (c : Char) : Decidable (IsAscii c) :=
  inferInstanceAs (Decidable (c.toNat < 128))

theorem toNat_ofUInt8 (byte : UInt8) : (Char.ofUInt8 byte).toNat = byte.toNat := rfl

theorem encode_of_isAscii {c : Char} (ascii : IsAscii c) : encode c = [c] := by
  have code : c.val.toNat ≤ 127 := Nat.le_of_lt_succ ascii
  have same : Char.ofUInt8 (UInt8.ofNat c.val.toNat) = c := by
    apply Char.ext
    apply UInt32.toNat_inj.mp
    calc (UInt8.ofNat c.val.toNat).toNat = c.val.toNat % 256 := UInt8.toNat_ofNat'
      _ = c.val.toNat := Nat.mod_eq_of_lt (by omega)
  simp only [encode, String.utf8EncodeChar, if_pos code, List.map_cons, List.map_nil, same]

theorem not_isAscii_of_mem_encode {c byte : Char} (other : ¬ IsAscii c)
    (member : byte ∈ encode c) : ¬ IsAscii byte := by
  have code : ¬ c.val.toNat ≤ 127 := fun small => other (Nat.lt_succ_of_le small)
  have high : ∀ code, 128 ≤ code → code < 256 → ¬ IsAscii (Char.ofUInt8 (UInt8.ofNat code)) := by
    intro code least most ascii
    rw [IsAscii, toNat_ofUInt8, UInt8.toNat_ofNat', Nat.mod_eq_of_lt most] at ascii
    omega
  rw [encode, List.mem_map] at member
  obtain ⟨byte, member, rfl⟩ := member
  simp only [String.utf8EncodeChar, if_neg code] at member
  split at member
  · simp only [List.mem_cons, List.not_mem_nil, or_false] at member
    rcases member with rfl | rfl <;> exact high _ (by omega) (by omega)
  split at member
  · simp only [List.mem_cons, List.not_mem_nil, or_false] at member
    rcases member with rfl | rfl | rfl <;> exact high _ (by omega) (by omega)
  · simp only [List.mem_cons, List.not_mem_nil, or_false] at member
    rcases member with rfl | rfl | rfl | rfl <;> exact high _ (by omega) (by omega)

/-- A scan that passes over single bytes that are not ASCII passes over whole characters
that are not. -/
theorem scan_encode_of_not_isAscii {α : Type} {scan : Nat → List Char → α}
    (passes : ∀ byte, ¬ IsAscii byte → ∀ offset rest,
      scan offset (byte :: rest) = scan (offset + 1) rest)
    {c : Char} (other : ¬ IsAscii c) (offset : Nat) (rest : List Char) :
    scan offset (encode c ++ rest) = scan (offset + (encode c).length) rest := by
  have all : ∀ byte ∈ encode c, ¬ IsAscii byte := fun byte => not_isAscii_of_mem_encode other
  generalize encode c = part at all
  induction part generalizing offset with
  | nil => rfl
  | cons byte part ih =>
      obtain ⟨first, more⟩ := List.forall_mem_cons.mp all
      rw [List.cons_append, passes byte first, ih _ more, List.length_cons, Nat.add_assoc,
        Nat.add_comm 1]

theorem length_encode_pos (c : Char) : 0 < (encode c).length := by
  rw [encode, List.length_map, String.length_utf8EncodeChar]
  exact Char.utf8Size_pos c

theorem bytes_of_isAscii {text : List Char} (ascii : ∀ c ∈ text, IsAscii c) :
    bytes text = text := by
  induction text with
  | nil => rfl
  | cons c text ih =>
      obtain ⟨first, rest⟩ := List.forall_mem_cons.mp ascii
      rw [bytes_cons, encode_of_isAscii first, ih rest, List.singleton_append]

theorem size_of_isAscii {text : List Char} (ascii : ∀ c ∈ text, IsAscii c) :
    size text = text.length := by
  rw [size, bytes_of_isAscii ascii]

theorem length_le_size (text : List Char) : text.length ≤ size text := by
  induction text with
  | nil => exact Nat.le_refl 0
  | cons c text ih =>
      have first := length_encode_pos c
      rw [size_cons, List.length_cons]
      omega

theorem bytes_eq_nil_iff {text : List Char} : bytes text = [] ↔ text = [] := by
  constructor
  · intro empty
    have short := length_le_size text
    rw [size, empty] at short
    exact List.eq_nil_of_length_eq_zero (Nat.le_zero.mp short)
  · rintro rfl
    rfl

theorem size_le_of_sublist {part text : List Char} (within : part.Sublist text) :
    size part ≤ size text := by
  induction within with
  | slnil => exact Nat.le_refl 0
  | cons c within ih =>
      rw [size_cons]
      exact Nat.le_trans ih (Nat.le_add_left _ _)
  | cons_cons c within ih =>
      rw [size_cons, size_cons]
      exact Nat.add_le_add_left ih _

/-! ## Classes of characters -/

/-- All characters of the class are ASCII. -/
def IsAsciiClass (p : Char → Bool) : Prop :=
  ∀ c, p c = true → IsAscii c

theorem isAsciiClass_eq {c : Char} (ascii : IsAscii c) : IsAsciiClass (· = c) := by
  intro d same
  rw [of_decide_eq_true same]
  exact ascii

theorem isAsciiClass_isDigit : IsAsciiClass Char.isDigit := by
  intro c digit
  simp only [Char.isDigit, Bool.and_eq_true, decide_eq_true_eq, UInt32.le_iff_toNat_le] at digit
  exact Nat.lt_of_le_of_lt digit.2 (by decide)

theorem isAsciiClass_isAlpha : IsAsciiClass Char.isAlpha := by
  intro c letter
  have cases : c.isAlpha = (decide (c.val ≥ 65 ∧ c.val ≤ 90) || c.val ≥ 97 && c.val ≤ 122) := rfl
  simp only [cases, Bool.or_eq_true, Bool.and_eq_true, decide_eq_true_eq,
    UInt32.le_iff_toNat_le] at letter
  rcases letter with ⟨-, high⟩ | ⟨-, high⟩
  · exact Nat.lt_of_le_of_lt high (by decide)
  · exact Nat.lt_of_le_of_lt high (by decide)

theorem IsAsciiClass.or {p q : Char → Bool} (left : IsAsciiClass p) (right : IsAsciiClass q) :
    IsAsciiClass fun c => p c || q c := by
  intro c member
  rcases (Bool.or_eq_true _ _).mp member with member | member
  · exact left c member
  · exact right c member

theorem isAsciiClass_isWordStart : IsAsciiClass isWordStart :=
  isAsciiClass_isAlpha.or (isAsciiClass_eq (by decide))

theorem isAsciiClass_isWordChar : IsAsciiClass isWordChar :=
  (isAsciiClass_isAlpha.or isAsciiClass_isDigit).or (isAsciiClass_eq (by decide))

theorem isAsciiClass_isAsciiBlank : IsAsciiClass isAsciiBlank := by
  intro c blank
  simp only [isAsciiBlank, Bool.or_eq_true, decide_eq_true_eq] at blank
  rcases blank with (((rfl | rfl) | rfl) | rfl) | rfl <;> decide

theorem IsAsciiClass.eq_false {p : Char → Bool} (ascii : IsAsciiClass p) {c : Char}
    (other : ¬ IsAscii c) : p c = false :=
  Bool.eq_false_iff.mpr fun member => other (ascii c member)

/-- The byte is the character, or neither of them is ASCII. -/
def Leads (byte c : Char) : Prop :=
  byte = c ∨ ¬ IsAscii byte ∧ ¬ IsAscii c

theorem exists_encode_eq_cons (c : Char) : ∃ byte more, encode c = byte :: more ∧ Leads byte c := by
  by_cases ascii : IsAscii c
  · exact ⟨c, [], encode_of_isAscii ascii, .inl rfl⟩
  · obtain ⟨byte, more, encoded⟩ := List.exists_cons_of_length_pos (length_encode_pos c)
    have other := not_isAscii_of_mem_encode ascii (encoded ▸ List.mem_cons_self)
    exact ⟨byte, more, encoded, .inr ⟨other, ascii⟩⟩

theorem Leads.class_eq {byte c : Char} (leads : Leads byte c) {p : Char → Bool}
    (ascii : IsAsciiClass p) : p byte = p c := by
  rcases leads with rfl | ⟨otherByte, other⟩
  · rfl
  · rw [ascii.eq_false otherByte, ascii.eq_false other]

theorem Leads.eq_iff {byte c d : Char} (leads : Leads byte c) (ascii : IsAscii d) :
    byte = d ↔ c = d := by
  simpa using leads.class_eq (isAsciiClass_eq ascii)

theorem head?_bytes_eq_some_iff {text : List Char} {c : Char} (ascii : IsAscii c) :
    (bytes text).head? = some c ↔ text.head? = some c := by
  cases text with
  | nil => exact Iff.rfl
  | cons d text =>
      obtain ⟨byte, more, encoded, leads⟩ := exists_encode_eq_cons d
      rw [bytes_cons, encoded]
      simpa using leads.eq_iff ascii

section
variable {p : Char → Bool} (ascii : IsAsciiClass p)
include ascii

theorem any_head?_bytes (text : List Char) : (bytes text).head?.any p = text.head?.any p := by
  cases text with
  | nil => rfl
  | cons c text =>
      obtain ⟨byte, more, encoded, leads⟩ := exists_encode_eq_cons c
      rw [bytes_cons, encoded]
      exact leads.class_eq ascii

theorem all_bytes (text : List Char) : (bytes text).all p = text.all p := by
  induction text with
  | nil => rfl
  | cons c text ih =>
      by_cases one : IsAscii c
      · rw [bytes_cons, encode_of_isAscii one, List.singleton_append, List.all_cons, List.all_cons,
          ih]
      · obtain ⟨byte, more, encoded, leads⟩ := exists_encode_eq_cons c
        rw [bytes_cons, encoded, List.cons_append, List.all_cons, List.all_cons,
          leads.class_eq ascii, ascii.eq_false one, Bool.false_and, Bool.false_and]

theorem takeWhile_bytes (text : List Char) : (bytes text).takeWhile p = text.takeWhile p := by
  induction text with
  | nil => rfl
  | cons c text ih =>
      by_cases member : p c = true
      · rw [bytes_cons, encode_of_isAscii (ascii c member), List.singleton_append,
          List.takeWhile_cons_of_pos member, List.takeWhile_cons_of_pos member, ih]
      · obtain ⟨byte, more, encoded, leads⟩ := exists_encode_eq_cons c
        rw [bytes_cons, encoded, List.cons_append,
          List.takeWhile_cons_of_neg (leads.class_eq ascii ▸ member),
          List.takeWhile_cons_of_neg member]

theorem size_takeWhile (text : List Char) :
    size (text.takeWhile p) = (text.takeWhile p).length :=
  size_of_isAscii fun c member => ascii c (List.mem_takeWhile_imp member)

/-- A search for a class of characters passes over whole characters. -/
theorem takeWhile_not_bytes (text : List Char) :
    (bytes text).takeWhile (fun c => !p c) = bytes (text.takeWhile fun c => !p c) := by
  induction text with
  | nil => rfl
  | cons c text ih =>
      by_cases member : p c = true
      · rw [List.takeWhile_cons_of_neg (by simp [member]), bytes_cons,
          encode_of_isAscii (ascii c member), List.singleton_append,
          List.takeWhile_cons_of_neg (by simp [member]), bytes_nil]
      · have passes : ∀ byte ∈ encode c, (!p byte) = true := by
          intro byte inside
          by_cases one : IsAscii c
          · rw [encode_of_isAscii one, List.mem_singleton] at inside
            rw [inside]
            simpa using member
          · rw [ascii.eq_false (not_isAscii_of_mem_encode one inside)]
            rfl
        rw [List.takeWhile_cons_of_pos (by simpa using member), bytes_cons, bytes_cons,
          List.takeWhile_append_of_pos passes, ih]

theorem dropWhile_not_bytes (text : List Char) :
    (bytes text).dropWhile (fun c => !p c) = bytes (text.dropWhile fun c => !p c) := by
  apply List.append_cancel_left
  rw [List.takeWhile_append_dropWhile, takeWhile_not_bytes ascii, ← bytes_append,
    List.takeWhile_append_dropWhile]

end

/-! ## Places -/

/-- Divides a text at an offset, unless the offset lies inside a character or behind
the end. -/
def divide? : List Char → Nat → Option (List Char × List Char)
  | text, 0 => some ([], text)
  | [], _ + 1 => none
  | c :: text, offset + 1 =>
    if (encode c).length ≤ offset + 1 then
      (divide? text (offset + 1 - (encode c).length)).map fun parts => (c :: parts.1, parts.2)
    else none

theorem divide?_eq_some_iff {text before rest : List Char} {offset : Nat} :
    divide? text offset = some (before, rest) ↔ text = before ++ rest ∧ offset = size before := by
  fun_induction divide? text offset generalizing before with
  | case1 text =>
      cases before with
      | nil => simp [eq_comm]
      | cons c before =>
          have first := length_encode_pos c
          simp only [Option.some.injEq, Prod.mk.injEq, size_cons, reduceCtorEq, false_and,
            false_iff]
          omega
  | case2 offset => cases before <;> simp
  | case3 c text offset fits ih =>
      cases before with
      | nil => simp
      | cons d before =>
          simp only [Option.map_eq_some_iff, Prod.exists, Prod.mk.injEq, List.cons.injEq,
            List.cons_append, size_cons]
          constructor
          · rintro ⟨parts, _, divided, ⟨rfl, rfl⟩, rfl⟩
            obtain ⟨whole, left⟩ := ih.mp divided
            exact ⟨⟨rfl, whole⟩, by omega⟩
          · rintro ⟨⟨rfl, whole⟩, sizes⟩
            exact ⟨before, rest, ih.mpr ⟨whole, by omega⟩, ⟨rfl, rfl⟩, rfl⟩
  | case4 c text offset inside =>
      cases before with
      | nil => simp
      | cons d before =>
          simp only [reduceCtorEq, List.cons_append, List.cons.injEq, size_cons, false_iff]
          rintro ⟨⟨rfl, -⟩, sizes⟩
          omega

/-- The part of a text between two offsets. -/
def slice (text : List Char) (start stop : Nat) : Checked (List Char) :=
  match divide? text stop with
  | none => .error .slice
  | some (before, _) =>
    match divide? before start with
    | none => .error .slice
    | some (_, part) => .ok part

/-- A part is given out exactly between two places in order. -/
theorem slice_eq_ok_iff {text part : List Char} {start stop : Nat} :
    slice text start stop = .ok part ↔
      ∃ before after, text = before ++ (part ++ after) ∧ start = size before ∧
        stop = start + size part := by
  constructor
  · intro taken
    rw [slice] at taken
    split at taken
    · cases taken
    rename_i upTo after divided
    obtain ⟨rfl, rfl⟩ := divide?_eq_some_iff.mp divided
    split at taken
    · cases taken
    rename_i before part' divided'
    obtain ⟨rfl, rfl⟩ := divide?_eq_some_iff.mp divided'
    cases taken
    exact ⟨before, after, List.append_assoc _ _ _, rfl, size_append _ _⟩
  · rintro ⟨before, after, rfl, rfl, rfl⟩
    have upTo : divide? (before ++ (part ++ after)) (size before + size part) =
        some (before ++ part, after) :=
      divide?_eq_some_iff.mpr ⟨(List.append_assoc _ _ _).symm, (size_append _ _).symm⟩
    have front : divide? (before ++ part) (size before) = some (before, part) :=
      divide?_eq_some_iff.mpr ⟨rfl, rfl⟩
    simp only [slice, upTo, front]

theorem slice_of_isAscii {before part after : List Char}
    (ascii : ∀ c ∈ before ++ (part ++ after), IsAscii c) :
    slice (before ++ (part ++ after)) before.length (before.length + part.length) = .ok part := by
  obtain ⟨ofBefore, others⟩ := List.forall_mem_append.mp ascii
  obtain ⟨ofPart, -⟩ := List.forall_mem_append.mp others
  refine slice_eq_ok_iff.mpr ⟨before, after, rfl, (size_of_isAscii ofBefore).symm, ?_⟩
  rw [size_of_isAscii ofPart]

example : slice "aé".toList 1 3 = .ok ['é'] ∧ slice "aé".toList 1 2 = .error .slice ∧
    slice "aé".toList 3 1 = .error .slice ∧ slice "aé".toList 1 4 = .error .slice := by
  decide

/-- The offset stands between two characters, in front of the given rest. -/
def IsPlace (text : List Char) (offset : Nat) (rest : List Char) : Prop :=
  ∃ before, text = before ++ rest ∧ offset = size before

theorem isPlace_zero (text : List Char) : IsPlace text 0 text :=
  ⟨[], rfl, rfl⟩

theorem IsPlace.add {text part rest : List Char} {offset : Nat}
    (place : IsPlace text offset (part ++ rest)) : IsPlace text (offset + size part) rest := by
  obtain ⟨before, rfl, rfl⟩ := place
  exact ⟨before ++ part, (List.append_assoc _ _ _).symm, (size_append _ _).symm⟩

theorem IsPlace.succ {text rest : List Char} {c : Char} {offset : Nat} (ascii : IsAscii c)
    (place : IsPlace text offset (c :: rest)) : IsPlace text (offset + 1) rest := by
  have one : size [c] = 1 := by
    rw [size_cons, encode_of_isAscii ascii]
    rfl
  rw [← one]
  exact IsPlace.add place

theorem IsPlace.takeWhile {text rest : List Char} {offset : Nat} (place : IsPlace text offset rest)
    {p : Char → Bool} (ascii : IsAsciiClass p) :
    IsPlace text (offset + (rest.takeWhile p).length) (rest.dropWhile p) := by
  rw [← size_takeWhile ascii]
  apply IsPlace.add
  rwa [List.takeWhile_append_dropWhile]

theorem IsPlace.drop_of_prefix {text part rest : List Char} {offset : Nat}
    (place : IsPlace text offset rest) (starts : part <+: rest) (ascii : ∀ c ∈ part, IsAscii c) :
    IsPlace text (offset + part.length) (rest.drop part.length) := by
  obtain ⟨more, rfl⟩ := starts
  rw [List.drop_left, ← size_of_isAscii ascii]
  exact place.add

/-- At a place stands the first byte of a character. -/
theorem IsPlace.exists_itemAt {text rest : List Char} {c : Char} {offset : Nat}
    (place : IsPlace text offset (c :: rest)) :
    ∃ byte, itemAt (bytes text) offset = .ok byte ∧ Leads byte c := by
  obtain ⟨before, rfl, rfl⟩ := place
  obtain ⟨byte, more, encoded, leads⟩ := exists_encode_eq_cons c
  refine ⟨byte, itemAt_of_getElem? ?_, leads⟩
  rw [bytes_append, bytes_cons, encoded, size, List.getElem?_append_right (Nat.le_refl _),
    Nat.sub_self]
  rfl

theorem IsPlace.slice {text part rest : List Char} {offset : Nat}
    (place : IsPlace text offset (part ++ rest)) :
    slice text offset (offset + size part) = .ok part := by
  obtain ⟨before, rfl, rfl⟩ := place
  exact slice_eq_ok_iff.mpr ⟨before, rest, rfl, rfl, rfl⟩

section
variable {text rest : List Char} {offset : Nat} (place : IsPlace text offset rest)
include place

theorem IsPlace.add_size : offset + size rest = size text := by
  obtain ⟨before, rfl, rfl⟩ := place
  exact (size_append _ _).symm

theorem IsPlace.slice_rest : Offset.slice text offset (size text) = .ok rest := by
  rw [← place.add_size]
  apply IsPlace.slice
  rwa [List.append_nil]

theorem IsPlace.drop_bytes : (bytes text).drop offset = bytes rest := by
  obtain ⟨before, rfl, rfl⟩ := place
  rw [bytes_append, size, List.drop_left]

theorem IsPlace.getElem? (count : Nat) : (bytes text)[offset + count]? = (bytes rest)[count]? := by
  rw [← place.drop_bytes, List.getElem?_drop]

theorem IsPlace.head? : (bytes text)[offset]? = (bytes rest).head? := by
  rw [List.head?_eq_getElem?]
  exact place.getElem? 0

/-- Only at the end no character is left. -/
theorem IsPlace.lt_size_iff : offset < size text ↔ rest ≠ [] := by
  have sizes := place.add_size
  cases rest with
  | nil =>
      rw [size_nil] at sizes
      simp only [ne_eq, not_true_eq_false, iff_false]
      omega
  | cons c rest =>
      have first := length_encode_pos c
      rw [size_cons] at sizes
      simp only [ne_eq, reduceCtorEq, not_false_eq_true, iff_true]
      omega

end

theorem IsPlace.not_lt_length {text : List Char} {offset : Nat} (place : IsPlace text offset []) :
    ¬ offset < (bytes text).length :=
  fun inside => place.lt_size_iff.mp inside rfl

theorem IsPlace.lt_length {text rest : List Char} {c : Char} {offset : Nat}
    (place : IsPlace text offset (c :: rest)) : offset < (bytes text).length :=
  place.lt_size_iff.mpr (List.cons_ne_nil c rest)

end SceneScript.Offset
