import Std.Data.TreeMap
import SceneScript.Decimal.Spelling
import SceneScript.Text.Word

/-!
# Variables

A store of numbers by name, listed in the order of the names. A name that
consists of several words may hold variables: `substitute` replaces each whole
word that is bound by its number and keeps all else.
-/

set_option autoImplicit false

namespace SceneScript

/-- Numbers by name. -/
structure Store where
  bindings : Std.TreeMap String Float

namespace Store

def empty : Store := ⟨∅⟩

def get? (store : Store) (name : String) : Option Float :=
  store.bindings[name]?

/-- Binds a name to a number, in place of what it was bound to before. -/
def set (store : Store) (name : String) (value : Float) : Store :=
  ⟨store.bindings.insert name value⟩

/-- The bindings in the order of the names. -/
def toList (store : Store) : List (String × Float) :=
  store.bindings.toList

def size (store : Store) : Nat :=
  store.bindings.size

theorem get?_set (store : Store) (name other : String) (value : Float) :
    (store.set name value).get? other =
      if name = other then some value else store.get? other := by
  simp only [get?, set, Std.TreeMap.getElem?_insert, Std.LawfulEqCmp.compare_eq_iff_eq]

/-- The text that a word stands for: its number if it is bound, else itself. -/
def expand (store : Store) (word : List Char) : List Char :=
  match store.get? (String.ofList word) with
  | some value => (Decimal.spliced.write value).toList
  | none => word

/-- Divides a text into its words and the characters between them. -/
def segments (text : List Char) : List (List Char) :=
  text.splitBy fun left right => Text.isWordChar left && Text.isWordChar right

/-- A segment with a bound word replaced. -/
def expandSegment (store : Store) (segment : List Char) : List Char :=
  if segment.all Text.isWordChar then store.expand segment else segment

/-- Replaces every bound word of a text. -/
def substitute (store : Store) (text : String) : String :=
  String.ofList ((segments text.toList).flatMap store.expandSegment)

end Store

end SceneScript
