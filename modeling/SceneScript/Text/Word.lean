/-!
# Words

Names in a script are words over ASCII letters, digits and the underscore. Any
other character, of whatever alphabet, ends a word.
-/

set_option autoImplicit false

namespace SceneScript.Text

/-- An ASCII letter or the underscore: what a name may start with. -/
def isWordStart (c : Char) : Bool :=
  c.isAlpha || c = '_'

/-- An ASCII letter, an ASCII digit or the underscore: what a word consists of. -/
def isWordChar (c : Char) : Bool :=
  c.isAlphanum || c = '_'

theorem isWordChar_of_isWordStart {c : Char} (start : isWordStart c = true) :
    isWordChar c = true := by
  simp only [isWordStart, Bool.or_eq_true] at start
  rcases start with letter | underscore
  · simp [isWordChar, Char.isAlphanum, letter]
  · simp [isWordChar, underscore]

/-- Identifiers: a letter or underscore, then word characters. -/
def IsName : List Char → Prop
  | [] => False
  | c :: rest => isWordStart c = true ∧ ∀ d ∈ rest, isWordChar d = true

/-- The leading word of a text, possibly empty. -/
def leadingWord (text : List Char) : List Char :=
  text.takeWhile isWordChar

def afterWord (text : List Char) : List Char :=
  text.dropWhile isWordChar

theorem leadingWord_append_afterWord (text : List Char) :
    leadingWord text ++ afterWord text = text :=
  List.takeWhile_append_dropWhile

def loopKeyword : List Char := ['f', 'o', 'r']

/-- Whether a text begins with the loop keyword as a whole word, not with a
longer word such as `format`. -/
def startsLoop (text : List Char) : Bool :=
  loopKeyword.isPrefixOf text &&
    !(text.drop loopKeyword.length).head?.any isWordChar

end SceneScript.Text
