import Mathlib.Data.List.Nodup
import SceneScript.Palette
import SceneScript.Proofs.Text.Hex

/-!
# Colors of tokens

What a token stands for depends on its trimmed text alone, and not on the case of its
letters. Three digits are short for six. A token that is neither a name of the table nor made
of three or six digits stands for black.

The digits are taken out by offset, one or two bytes at a time. Every byte has been found to
be a digit before, so each offset is a place and each channel fits into a byte.
-/

set_option autoImplicit false

namespace SceneScript.Palette

open SceneScript.Text

/-! ## The meaning of a token -/

/-- The trimmed token stands for the color. -/
inductive Denotes : List Char → Rgb → Prop
  | name {entry : String × Rgb} {name : List Char} (listed : entry ∈ named)
      (same : SameLetters entry.1.toList name) : Denotes name entry.2
  | short {digits : List Char} {red green blue : Nat} (read : IsHex digits [red, green, blue]) :
      Denotes ('#' :: digits) ⟨17 * red, 17 * green, 17 * blue⟩
  | long {digits : List Char} {red red' green green' blue blue' : Nat}
      (read : IsHex digits [red, red', green, green', blue, blue']) :
      Denotes ('#' :: digits) ⟨16 * red + red', 16 * green + green', 16 * blue + blue'⟩

/-- The color of a trimmed token, if it stands for one. -/
def tokenColor? : List Char → Option Rgb
  | '#' :: digits => hexColor? digits
  | name => namedColor? name

theorem rgb_eq (token : String) :
    rgb token = (tokenColor? (trim token.toList)).getD black := by
  rw [rgb]
  generalize trim token.toList = text
  fun_cases tokenColor? text with
  | case1 digits => rfl
  | case2 name noMark =>
      split
      · exact (noMark _ rfl).elim
      · rfl

theorem tokenColor?_of_name {text : List Char} (noMark : text.head? ≠ some '#') :
    tokenColor? text = namedColor? text := by
  unfold tokenColor?
  split
  · exact absurd rfl noMark
  · rfl

theorem hexColor?_short {digits : List Char} {red green blue : Nat}
    (read : IsHex digits [red, green, blue]) :
    hexColor? digits = some ⟨17 * red, 17 * green, 17 * blue⟩ := by
  rw [hexColor?, mapM_hexDigit?_eq_some_iff.mpr read]

theorem hexColor?_long {digits : List Char} {red red' green green' blue blue' : Nat}
    (read : IsHex digits [red, red', green, green', blue, blue']) :
    hexColor? digits = some ⟨16 * red + red', 16 * green + green', 16 * blue + blue'⟩ := by
  rw [hexColor?, mapM_hexDigit?_eq_some_iff.mpr read]

theorem denotes_of_hexColor? {digits : List Char} {color : Rgb}
    (found : hexColor? digits = some color) : Denotes ('#' :: digits) color := by
  unfold hexColor? at found
  split at found
  · rename_i values
    cases found
    exact .short (mapM_hexDigit?_eq_some_iff.mp values)
  · rename_i values
    cases found
    exact .long (mapM_hexDigit?_eq_some_iff.mp values)
  · cases found

/-! ## Names -/

theorem toLower_of_mem_named :
    ∀ entry ∈ named, entry.1.toList.map Char.toLower = entry.1.toList := by
  decide +kernel

/-- No name begins with the mark of digits. -/
theorem head?_ne_of_sameLetters {entry : String × Rgb} {text : List Char} (listed : entry ∈ named)
    (same : SameLetters entry.1.toList text) : text.head? ≠ some '#' := by
  have noMark : ∀ entry ∈ named, entry.1.toList.head? ≠ some '#' := by decide +kernel
  rw [SameLetters, toLower_of_mem_named entry listed] at same
  intro marked
  apply noMark entry listed
  rw [same, List.head?_map, marked]
  rfl

theorem nodup_names : (named.map Prod.fst).Nodup := by
  decide +kernel

theorem namedColor?_eq_some_iff {name : List Char} {color : Rgb} :
    namedColor? name = some color ↔
      ∃ entry ∈ named, SameLetters entry.1.toList name ∧ entry.2 = color := by
  unfold namedColor? SameLetters
  rw [Option.map_eq_some_iff]
  constructor
  · rintro ⟨entry, found, rfl⟩
    have listed := List.mem_of_find?_eq_some found
    have same := List.find?_some found
    refine ⟨entry, listed, ?_, rfl⟩
    rw [toLower_of_mem_named entry listed]
    exact of_decide_eq_true same
  · rintro ⟨entry, listed, same, rfl⟩
    rw [toLower_of_mem_named entry listed] at same
    cases found : named.find? fun entry => entry.1.toList = name.map Char.toLower with
    | none =>
        have missed := List.find?_eq_none.mp found entry listed
        exact absurd (decide_eq_true same) missed
    | some other =>
        have sameToo : other.1.toList = name.map Char.toLower := by
          simpa using List.find?_some found
        have sameName : other.1 = entry.1 := String.toList_inj.mp (sameToo.trans same.symm)
        have one : other = entry := List.inj_on_of_nodup_map nodup_names
          (List.mem_of_find?_eq_some found) listed sameName
        exact ⟨other, rfl, congrArg Prod.snd one⟩

theorem tokenColor?_eq_some_iff {text : List Char} {color : Rgb} :
    tokenColor? text = some color ↔ Denotes text color := by
  constructor
  · intro found
    unfold tokenColor? at found
    split at found
    · exact denotes_of_hexColor? found
    · obtain ⟨entry, listed, same, rfl⟩ := namedColor?_eq_some_iff.mp found
      exact .name listed same
  · intro denotes
    cases denotes with
    | short read => exact hexColor?_short read
    | long read => exact hexColor?_long read
    | @name entry _ listed same =>
        rw [tokenColor?_of_name (head?_ne_of_sameLetters listed same)]
        exact namedColor?_eq_some_iff.mpr ⟨entry, listed, same, rfl⟩

/-! ## Laws -/

theorem tokenColor?_map_toLower (text : List Char) :
    tokenColor? (text.map Char.toLower) = tokenColor? text := by
  have ofName (name : List Char) : namedColor? (name.map Char.toLower) = namedColor? name := by
    rw [namedColor?, map_toLower_map_toLower, ← namedColor?]
  have ofDigits (digits : List Char) : hexColor? (digits.map Char.toLower) = hexColor? digits := by
    rw [hexColor?, mapM_hexDigit?_map_toLower, ← hexColor?]
  cases text with
  | nil => rfl
  | cons c rest =>
      by_cases mark : c = '#'
      · subst mark
        exact ofDigits rest
      · have lowered : c.toLower ≠ '#' := mt (toLower_eq_iff (by decide)).mp mark
        rw [tokenColor?_of_name (by simpa using lowered), ofName,
          tokenColor?_of_name (by simpa using mark)]

theorem rgb_of_sameLetters {token other : String}
    (same : SameLetters token.toList other.toList) : rgb token = rgb other := by
  have lowered (token : String) :
      rgb token = (tokenColor? (trim (token.toList.map Char.toLower))).getD black := by
    rw [rgb_eq, trim_map isBlank_toLower, tokenColor?_map_toLower]
  rw [lowered, lowered, same]

theorem rgb_append_blanks {front back : String} (blankFront : ∀ c ∈ front.toList, isBlank c = true)
    (blankBack : ∀ c ∈ back.toList, isBlank c = true) (token : String) :
    rgb (front ++ (token ++ back)) = rgb token := by
  rw [rgb_eq, rgb_eq, String.toList_append, String.toList_append,
    trim_append_blanks blankFront blankBack]

theorem rgb_of_digits {digits : List Char} (all : ∀ c ∈ digits, isHexDigit c = true) :
    rgb (String.ofList ('#' :: digits)) = (hexColor? digits).getD black := by
  have solid : ∀ c ∈ '#' :: digits, isBlank c = false :=
    List.forall_mem_cons.mpr ⟨by decide, fun c member => isBlank_of_isHexDigit (all c member)⟩
  have trimmed : IsTrimmed ('#' :: digits) :=
    ⟨fun c first => solid c (List.mem_of_mem_head? first),
      fun c last => solid c (List.mem_of_mem_getLast? last)⟩
  rw [rgb_eq, String.toList_ofList, trim_eq_self_iff.mpr trimmed]
  rfl

theorem rgb_doubled {r g b : Char} (ofRed : isHexDigit r = true) (ofGreen : isHexDigit g = true)
    (ofBlue : isHexDigit b = true) :
    rgb (String.ofList ['#', r, g, b]) = rgb (String.ofList ['#', r, r, g, g, b, b]) := by
  have doubled (value : Nat) : 16 * value + value = 17 * value := by omega
  rw [rgb_of_digits (by simp [ofRed, ofGreen, ofBlue]),
    rgb_of_digits (by simp [ofRed, ofGreen, ofBlue])]
  obtain ⟨red, isRed⟩ := Option.isSome_iff_exists.mp ofRed
  obtain ⟨green, isGreen⟩ := Option.isSome_iff_exists.mp ofGreen
  obtain ⟨blue, isBlue⟩ := Option.isSome_iff_exists.mp ofBlue
  have once : IsHex [r, g, b] [red, green, blue] :=
    .cons isRed (.cons isGreen (.cons isBlue .nil))
  have twice : IsHex [r, r, g, g, b, b] [red, red, green, green, blue, blue] :=
    .cons isRed (.cons isRed (.cons isGreen (.cons isGreen (.cons isBlue (.cons isBlue .nil)))))
  rw [hexColor?_short once, hexColor?_long twice]
  simp only [doubled]

theorem hexColor?_eq_none {digits : List Char}
    (other : ¬ ((∀ c ∈ digits, isHexDigit c = true) ∧ (digits.length = 3 ∨ digits.length = 6))) :
    hexColor? digits = none := by
  cases found : hexColor? digits with
  | none => rfl
  | some color =>
      cases denotes_of_hexColor? found with
      | name listed same => exact absurd rfl (head?_ne_of_sameLetters listed same)
      | short read => exact absurd ⟨read.isHexDigit, .inl read.length_eq⟩ other
      | long read => exact absurd ⟨read.isHexDigit, .inr read.length_eq⟩ other

theorem rgb_eq_black {token : String}
    (noName : ∀ entry ∈ named, ¬ SameLetters entry.1.toList (trim token.toList))
    (noDigits : ∀ digits, trim token.toList = '#' :: digits →
      (∀ c ∈ digits, isHexDigit c = true) → digits.length ≠ 3 ∧ digits.length ≠ 6) :
    rgb token = black := by
  rw [rgb_eq]
  generalize trim token.toList = text at noName noDigits
  cases found : tokenColor? text with
  | none => rfl
  | some color =>
      cases tokenColor?_eq_some_iff.mp found with
      | name listed same => exact absurd same (noName _ listed)
      | short read => exact absurd read.length_eq (noDigits _ rfl read.isHexDigit).1
      | long read => exact absurd read.length_eq (noDigits _ rfl read.isHexDigit).2

end SceneScript.Palette

/-! ## Digits by offset -/

namespace SceneScript.Offset

open SceneScript.Text

def withoutPlus : List Char → List Char
  | '+' :: digits => digits
  | digits => digits

/-- The number of a text of hexadecimal digits, if it fits into a byte. A plus sign may stand
in front of the digits. -/
def byteValue? (text : List Char) : Option Nat :=
  if withoutPlus text = [] then none
  else (hexValue? (withoutPlus text)).filter (· < 256)

/-- A digit for both halves of a byte. -/
def doubled (digit : Nat) : Checked Nat :=
  if 17 * digit < 256 then .ok (17 * digit) else .error .overflow

/-- The number in some bytes of a text from an offset on. -/
def valueAt (text : List Char) (start count : Nat) : Checked (Option Nat) := do
  let digits ← slice text start (start + count)
  return byteValue? digits

/-- The color of three digits. -/
def shortColor (hex : List Char) : Checked (Option Rgb) := do
  let some red ← valueAt hex 0 1 | return none
  let red ← doubled red
  let some green ← valueAt hex 1 1 | return none
  let green ← doubled green
  let some blue ← valueAt hex 2 1 | return none
  let blue ← doubled blue
  return some ⟨red, green, blue⟩

/-- The color of six digits. -/
def longColor (hex : List Char) : Checked (Option Rgb) := do
  let some red ← valueAt hex 0 2 | return none
  let some green ← valueAt hex 2 2 | return none
  let some blue ← valueAt hex 4 2 | return none
  return some ⟨red, green, blue⟩

def hexColor (hex : List Char) : Checked (Option Rgb) :=
  if !(bytes hex).all isHexDigit then return none
  else
    match size hex with
    | 3 => shortColor hex
    | 6 => longColor hex
    | _ => return none

def rgb (token : String) : Checked Rgb :=
  match trim token.toList with
  | '#' :: hex => do
    let color ← hexColor hex
    return color.getD Palette.black
  | name => return (Palette.namedColor? name).getD Palette.black

theorem byteValue?_eq {digits : List Char} {values : List Nat} (read : IsHex digits values)
    (solid : digits ≠ [])
    (small : values.foldl (fun value digit => 16 * value + digit) 0 < 256) :
    byteValue? digits = some (values.foldl (fun value digit => 16 * value + digit) 0) := by
  have unsigned : withoutPlus digits = digits := by
    unfold withoutPlus
    split
    · -- A sign is no digit.
      cases read with
      | cons sign => cases sign
    · rfl
  rw [byteValue?, unsigned, if_neg solid, hexValue?, mapM_hexDigit?_eq_some_iff.mpr read,
    Option.map_some, Option.filter_some, if_pos (decide_eq_true small)]

theorem byteValue?_one {c : Char} {value : Nat} (found : hexDigit? c = some value) :
    byteValue? [c] = some value := by
  have small := lt_of_hexDigit? found
  simpa using byteValue?_eq (.cons found .nil) (by simp) (by simp; omega)

theorem byteValue?_two {c d : Char} {high low : Nat} (ofHigh : hexDigit? c = some high)
    (ofLow : hexDigit? d = some low) : byteValue? [c, d] = some (16 * high + low) := by
  have small := lt_of_hexDigit? ofHigh
  have smallToo := lt_of_hexDigit? ofLow
  simpa using byteValue?_eq (.cons ofHigh (.cons ofLow .nil)) (by simp) (by simp; omega)

theorem doubled_eq_ok {digit : Nat} (small : digit < 16) : doubled digit = .ok (17 * digit) :=
  if_pos (by omega)

theorem valueAt_eq_ok (before digits after : List Char)
    (ascii : ∀ c ∈ before ++ (digits ++ after), IsAscii c) :
    valueAt (before ++ (digits ++ after)) before.length digits.length =
      .ok (byteValue? digits) := by
  rw [valueAt, slice_of_isAscii ascii]
  rfl

theorem shortColor_eq_ok {r g b : Char} (digits : ∀ c ∈ [r, g, b], isHexDigit c = true) :
    shortColor [r, g, b] = .ok (Palette.hexColor? [r, g, b]) := by
  have ascii : ∀ c ∈ [r, g, b], IsAscii c :=
    fun c member => isAsciiClass_isHexDigit c (digits c member)
  simp only [List.forall_mem_cons, isHexDigit, Option.isSome_iff_exists] at digits
  obtain ⟨⟨red, ofRed⟩, ⟨green, ofGreen⟩, ⟨blue, ofBlue⟩, -⟩ := digits
  have read : IsHex [r, g, b] [red, green, blue] :=
    .cons ofRed (.cons ofGreen (.cons ofBlue .nil))
  have atRed : valueAt [r, g, b] 0 1 = .ok (byteValue? [r]) := valueAt_eq_ok [] [r] [g, b] ascii
  have atGreen : valueAt [r, g, b] 1 1 = .ok (byteValue? [g]) := valueAt_eq_ok [r] [g] [b] ascii
  have atBlue : valueAt [r, g, b] 2 1 = .ok (byteValue? [b]) := valueAt_eq_ok [r, g] [b] [] ascii
  simp only [shortColor, atRed, atGreen, atBlue, byteValue?_one ofRed, byteValue?_one ofGreen,
    byteValue?_one ofBlue, doubled_eq_ok (lt_of_hexDigit? ofRed),
    doubled_eq_ok (lt_of_hexDigit? ofGreen), doubled_eq_ok (lt_of_hexDigit? ofBlue), ok_bind,
    Palette.hexColor?_short read, pure_eq_ok]

theorem longColor_eq_ok {r r' g g' b b' : Char}
    (digits : ∀ c ∈ [r, r', g, g', b, b'], isHexDigit c = true) :
    longColor [r, r', g, g', b, b'] = .ok (Palette.hexColor? [r, r', g, g', b, b']) := by
  have ascii : ∀ c ∈ [r, r', g, g', b, b'], IsAscii c :=
    fun c member => isAsciiClass_isHexDigit c (digits c member)
  simp only [List.forall_mem_cons, isHexDigit, Option.isSome_iff_exists] at digits
  obtain ⟨⟨red, ofRed⟩, ⟨red', ofRed'⟩, ⟨green, ofGreen⟩, ⟨green', ofGreen'⟩, ⟨blue, ofBlue⟩,
    ⟨blue', ofBlue'⟩, -⟩ := digits
  have read : IsHex [r, r', g, g', b, b'] [red, red', green, green', blue, blue'] :=
    .cons ofRed (.cons ofRed' (.cons ofGreen (.cons ofGreen' (.cons ofBlue (.cons ofBlue' .nil)))))
  have atRed : valueAt [r, r', g, g', b, b'] 0 2 = .ok (byteValue? [r, r']) :=
    valueAt_eq_ok [] [r, r'] [g, g', b, b'] ascii
  have atGreen : valueAt [r, r', g, g', b, b'] 2 2 = .ok (byteValue? [g, g']) :=
    valueAt_eq_ok [r, r'] [g, g'] [b, b'] ascii
  have atBlue : valueAt [r, r', g, g', b, b'] 4 2 = .ok (byteValue? [b, b']) :=
    valueAt_eq_ok [r, r', g, g'] [b, b'] [] ascii
  simp only [longColor, atRed, atGreen, atBlue, byteValue?_two ofRed ofRed',
    byteValue?_two ofGreen ofGreen', byteValue?_two ofBlue ofBlue', ok_bind,
    Palette.hexColor?_long read, pure_eq_ok]

theorem hexColor_eq_ok (hex : List Char) : hexColor hex = .ok (Palette.hexColor? hex) := by
  rw [hexColor, all_bytes isAsciiClass_isHexDigit]
  by_cases all : hex.all isHexDigit = true
  · have digits := List.all_eq_true.mp all
    have bytewise : size hex = hex.length :=
      size_of_isAscii fun c member => isAsciiClass_isHexDigit c (digits c member)
    rw [if_neg (by simp [all]), bytewise]
    split
    · rename_i count
      obtain ⟨r, g, b, rfl⟩ := List.length_eq_three.mp count
      exact shortColor_eq_ok digits
    · rename_i count
      match hex, count with
      | [r, r', g, g', b, b'], _ => exact longColor_eq_ok digits
    · rename_i notThree notSix
      rw [Palette.hexColor?_eq_none fun shape => shape.2.elim notThree notSix]
      rfl
  · rw [if_pos (by simpa using all),
      Palette.hexColor?_eq_none fun shape => all (List.all_eq_true.mpr shape.1)]
    rfl

theorem rgb_eq_ok (token : String) : rgb token = .ok (Palette.rgb token) := by
  rw [rgb, Palette.rgb_eq]
  generalize trim token.toList = text
  fun_cases Palette.tokenColor? text with
  | case1 digits => simp only [hexColor_eq_ok, ok_bind, pure_eq_ok]
  | case2 name noMark =>
      split
      · exact (noMark _ rfl).elim
      · rfl

end SceneScript.Offset

namespace SceneScript.Palette

open SceneScript.Text

/-- What a token stands for: blanks around it and the case of its letters do not matter; the
names of the table and three or six digits have their colors, three digits the color of each
digit twice; every other token is black. Reading it by offset gives the same color, so no part
is taken out but between two places, and no channel is more than a byte, whatever the token
consists of. -/
theorem rgb_of_token :
    (∀ front token back : String, (∀ c ∈ front.toList, isBlank c = true) →
      (∀ c ∈ back.toList, isBlank c = true) → rgb (front ++ (token ++ back)) = rgb token) ∧
    (∀ token other : String, SameLetters token.toList other.toList → rgb token = rgb other) ∧
    (∀ r g b : Char, isHexDigit r = true → isHexDigit g = true → isHexDigit b = true →
      rgb (String.ofList ['#', r, g, b]) = rgb (String.ofList ['#', r, r, g, g, b, b])) ∧
    (∀ token color, Denotes (trim token.toList) color → rgb token = color) ∧
    (∀ token : String, (∀ entry ∈ named, ¬ SameLetters entry.1.toList (trim token.toList)) →
      (∀ digits, trim token.toList = '#' :: digits → (∀ c ∈ digits, isHexDigit c = true) →
        digits.length ≠ 3 ∧ digits.length ≠ 6) → rgb token = black) ∧
    ∀ token : String, Offset.rgb token = .ok (rgb token) := by
  refine ⟨fun front token back blankFront blankBack => rgb_append_blanks blankFront blankBack token,
    fun token other => rgb_of_sameLetters, fun r g b => rgb_doubled, fun token color denotes => ?_,
    fun token => rgb_eq_black, Offset.rgb_eq_ok⟩
  rw [rgb_eq, tokenColor?_eq_some_iff.mpr denotes]
  rfl

/-- Digits between blanks of several bytes, a name in mixed case, and a token of which the
first of three bytes behind the mark begins a character of two. -/
theorem rgb_of_token_of_several_bytes :
    rgb "\u00a0 #Fa0\u3000" = ⟨255, 170, 0⟩ ∧ rgb "#FFaa00" = ⟨255, 170, 0⟩ ∧
      rgb "SkyBlue" = ⟨135, 206, 235⟩ ∧ rgb "#éa" = black ∧ Offset.rgb "#éa" = .ok black := by
  obtain ⟨around, letters, twice, meaning, other, byOffset⟩ := rgb_of_token
  have read : IsHex ['F', 'a', '0'] [15, 10, 0] := .cons rfl (.cons rfl (.cons rfl .nil))
  have digits : rgb "#Fa0" = ⟨255, 170, 0⟩ := meaning "#Fa0" _ (.short read)
  have spaced : rgb ("\u00a0 " ++ ("#Fa0" ++ "\u3000")) = rgb "#Fa0" :=
    around _ _ _ (List.all_eq_true.mp (by decide)) (List.all_eq_true.mp (by decide))
  have name : rgb "skyblue" = ⟨135, 206, 235⟩ :=
    meaning "skyblue" _ (.name (show ("skyblue", ⟨135, 206, 235⟩) ∈ named by decide) rfl)
  have noColor : rgb "#éa" = black := by
    refine other "#éa" (by decide +kernel) fun digits shape all => ?_
    have trimmed : trim "#éa".toList = ['#', 'é', 'a'] := by decide
    cases trimmed.symm.trans shape
    exact absurd (all 'é' List.mem_cons_self) (by decide)
  exact ⟨spaced.trans digits, (twice 'F' 'a' '0' rfl rfl rfl).symm.trans digits,
    (letters "SkyBlue" "skyblue" (by decide)).trans name, noColor,
    (byOffset "#éa").trans (congrArg _ noColor)⟩

end SceneScript.Palette
