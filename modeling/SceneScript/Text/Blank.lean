/-!
# Blank characters

Two classes of blank characters are in use. Trimming removes every character
with the Unicode property `White_Space`; scanning between tokens and between
statements skips ASCII blanks only. The second class is contained in the first.
-/

set_option autoImplicit false

namespace SceneScript.Text

/-- The code points with the Unicode property `White_Space`, as closed ranges in
increasing order. -/
def blankRanges : List (Nat × Nat) :=
  [(0x09, 0x0D), (0x20, 0x20), (0x85, 0x85), (0xA0, 0xA0), (0x1680, 0x1680),
    (0x2000, 0x200A), (0x2028, 0x2029), (0x202F, 0x202F), (0x205F, 0x205F),
    (0x3000, 0x3000)]

/-- A character with the Unicode property `White_Space`. -/
def isBlank (c : Char) : Bool :=
  blankRanges.any fun range => range.1 ≤ c.toNat && c.toNat ≤ range.2

/-- Space, tab, line feed, form feed or carriage return. The vertical tab is
blank, but it is not an ASCII blank. -/
def isAsciiBlank (c : Char) : Bool :=
  c = ' ' || c = '\t' || c = '\n' || c = '\x0c' || c = '\r'

theorem isBlank_of_isAsciiBlank {c : Char} (ascii : isAsciiBlank c = true) : isBlank c = true := by
  simp only [isAsciiBlank, Bool.or_eq_true, decide_eq_true_eq] at ascii
  rcases ascii with (((rfl | rfl) | rfl) | rfl) | rfl <;> decide

def trimStart (text : List Char) : List Char :=
  text.dropWhile isBlank

def trimEnd (text : List Char) : List Char :=
  (text.reverse.dropWhile isBlank).reverse

def trim (text : List Char) : List Char :=
  trimEnd (trimStart text)

def skipBlanks (text : List Char) : List Char :=
  text.dropWhile isAsciiBlank

end SceneScript.Text
