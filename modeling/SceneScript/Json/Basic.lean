import SceneScript.Decimal.Basic

/-!
# JSON values

Numbers keep all their digits, and members of objects keep their order and may
repeat a key. A string whose escapes name half of a surrogate pair is well formed,
but it stands for no text: its content is `none`.
-/

set_option autoImplicit false

namespace SceneScript

/-- JSON values. -/
inductive Json where
  | null
  | bool (value : Bool)
  | number (negative : Bool) (magnitude : Decimal)
  | string (content : Option String)
  | array (items : List Json)
  | object (members : List (Option String × Json))

namespace Json

/-- The number nearest to a JSON number, unless that is infinite. -/
def toFloat? : Json → Option Float
  | .number negative magnitude =>
    let value := magnitude.toFloat negative
    if value.isFinite then some value else none
  | _ => none

def toText? : Json → Option String
  | .string content => content
  | _ => none

/-- The truth value of a JSON literal. -/
def toBool? : Json → Option Bool
  | .bool value => some value
  | _ => none

/-- The member of an object under a key that occurs at most once. -/
def member? (members : List (Option String × Json)) (key : String) : Option (Option Json) :=
  match members.filter fun member => member.1 = some key with
  | [] => some none
  | [member] => some (some member.2)
  | _ => none

/-- The named fields of a record, in the given order. A record is an object, in
which other keys are passed over, or an array that lists the fields. Fields may be
missing, but none may occur twice. -/
def fields? (keys : List String) : Json → Option (List (Option Json))
  | .object members =>
    if members.all fun member => member.1.isSome then keys.mapM (member? members) else none
  | .array items =>
    if items.length ≤ keys.length then
      some (items.map some ++ List.replicate (keys.length - items.length) none)
    else none
  | _ => none

end Json

end SceneScript
