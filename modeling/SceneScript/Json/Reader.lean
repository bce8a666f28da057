import SceneScript.Decimal.Numeral
import SceneScript.Json.Basic
import SceneScript.Text.Hex

/-!
# Reading JSON

Only well-formed JSON is read: no trailing commas, no comments, no control
characters in strings, no text behind the value. Blanks are space, tab, line feed
and carriage return.
-/

set_option autoImplicit false

namespace SceneScript.Json

open SceneScript.Text

def isJsonBlank (c : Char) : Bool :=
  c = ' ' || c = '\t' || c = '\n' || c = '\r'

def skipJsonBlanks (text : List Char) : List Char :=
  text.dropWhile isJsonBlank

/-! ## Strings -/

/-- The character for the letter of an escape. -/
def escape? : Char → Option Char
  | '"' => some '"'
  | '\\' => some '\\'
  | '/' => some '/'
  | 'b' => some '\x08'
  | 'f' => some '\x0c'
  | 'n' => some '\n'
  | 'r' => some '\r'
  | 't' => some '\t'
  | _ => none

/-- The code units of a string up to its closing quote, in front of those that have
been seen, and the text behind the quote. -/
def stringUnits (seen : List Nat) : List Char → Option (List Nat × List Char)
  | [] => none
  | '"' :: rest => some (seen.reverse, rest)
  | '\\' :: 'u' :: a :: b :: c :: d :: rest =>
    match hexValue? [a, b, c, d] with
    | some unit => stringUnits (unit :: seen) rest
    | none => none
  | '\\' :: letter :: rest =>
    match escape? letter with
    | some c => stringUnits (c.toNat :: seen) rest
    | none => none
  | c :: rest =>
    if c.toNat < 0x20 ∨ c = '\\' then none else stringUnits (c.toNat :: seen) rest

/-- Whether a code unit is the first half of a surrogate pair. -/
def isHighSurrogate (unit : Nat) : Bool :=
  0xD800 ≤ unit && unit < 0xDC00

/-- Whether a code unit is the second half of a surrogate pair. -/
def isLowSurrogate (unit : Nat) : Bool :=
  0xDC00 ≤ unit && unit < 0xE000

/-- The characters of code units; a half of a surrogate pair has none. -/
def decodeUnits (seen : List Char) : List Nat → Option (List Char)
  | [] => some seen.reverse
  | high :: low :: rest =>
    if isHighSurrogate high && isLowSurrogate low then
      decodeUnits (Char.ofNat (0x10000 + (high - 0xD800) * 0x400 + (low - 0xDC00)) :: seen) rest
    else if isHighSurrogate high || isLowSurrogate high then none
    else decodeUnits (Char.ofNat high :: seen) (low :: rest)
  | [unit] =>
    if isHighSurrogate unit || isLowSurrogate unit then none
    else some (Char.ofNat unit :: seen).reverse

/-- Reads a string behind its opening quote. -/
def readString (text : List Char) : Option (Option String × List Char) :=
  (stringUnits [] text).map fun (units, rest) =>
    ((decodeUnits [] units).map String.ofList, rest)

/-! ## Numbers -/

/-- Whether a numeral is a JSON number: no needless leading zero, and digits on
both sides of a point. -/
def isJsonNumeral (text : List Char) : Bool :=
  let mantissa := Decimal.mantissaPart text
  let whole := mantissa.takeWhile Char.isDigit
  let fraction := mantissa.drop whole.length
  whole ≠ [] && (whole.head? ≠ some '0' || whole.length = 1) && fraction ≠ ['.']

def readMagnitude (negative : Bool) (text : List Char) : Option (Json × List Char) :=
  let numeral := Decimal.numeral text
  if isJsonNumeral numeral then
    (Decimal.read? numeral).map fun magnitude =>
      (.number negative magnitude, text.drop numeral.length)
  else none

def readNumber : List Char → Option (Json × List Char)
  | '-' :: rest => readMagnitude true rest
  | text => readMagnitude false text

/-! ## Values -/

mutual

/-- Reads a value; the first argument bounds the count of nested calls. -/
def readValue : Nat → List Char → Option (Json × List Char)
  | 0, _ => none
  | bound + 1, text =>
    match skipJsonBlanks text with
    | 'n' :: 'u' :: 'l' :: 'l' :: rest => some (.null, rest)
    | 't' :: 'r' :: 'u' :: 'e' :: rest => some (.bool true, rest)
    | 'f' :: 'a' :: 'l' :: 's' :: 'e' :: rest => some (.bool false, rest)
    | '"' :: rest => (readString rest).map fun (content, rest) => (.string content, rest)
    | '[' :: rest =>
      match skipJsonBlanks rest with
      | ']' :: rest => some (.array [], rest)
      | rest => (readItems bound rest).map fun (items, rest) => (.array items, rest)
    | '{' :: rest =>
      match skipJsonBlanks rest with
      | '}' :: rest => some (.object [], rest)
      | rest => (readMembers bound rest).map fun (members, rest) => (.object members, rest)
    | text => readNumber text

/-- Reads the items of an array up to its closing bracket. -/
def readItems : Nat → List Char → Option (List Json × List Char)
  | 0, _ => none
  | bound + 1, text =>
    match readValue bound text with
    | none => none
    | some (item, rest) =>
      match skipJsonBlanks rest with
      | ',' :: rest => (readItems bound rest).map fun (items, rest) => (item :: items, rest)
      | ']' :: rest => some ([item], rest)
      | _ => none

/-- Reads the members of an object up to its closing brace. -/
def readMembers : Nat → List Char → Option (List (Option String × Json) × List Char)
  | 0, _ => none
  | bound + 1, text =>
    match skipJsonBlanks text with
    | '"' :: rest =>
      match readString rest with
      | none => none
      | some (key, rest) =>
        match skipJsonBlanks rest with
        | ':' :: rest =>
          match readValue bound rest with
          | none => none
          | some (value, rest) =>
            match skipJsonBlanks rest with
            | ',' :: rest =>
              (readMembers bound rest).map fun (members, rest) => ((key, value) :: members, rest)
            | '}' :: rest => some ([(key, value)], rest)
            | _ => none
        | _ => none
    | _ => none

end

/-- Reads a text that consists of one value. A nested call uses up a character, or
follows one that did. -/
def parse? (text : List Char) : Option Json :=
  match readValue (2 * text.length + 2) text with
  | some (value, rest) => if skipJsonBlanks rest = [] then some value else none
  | none => none

end SceneScript.Json
