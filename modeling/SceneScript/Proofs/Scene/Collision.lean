import Mathlib.Data.List.Forall2
import SceneScript.Scene.Collision

/-!
# What a collision pass keeps

A collision pass paints objects and does nothing else to them: each entry keeps its
place, its name and all of its object but the color.
-/

set_option autoImplicit false

namespace SceneScript

/-- The second object differs from the first in its color at most. -/
def Object.IsRecolored (first second : Object) : Prop :=
  second = { first with color := second.color }

namespace Object.IsRecolored

theorem refl (object : Object) : object.IsRecolored object := rfl

theorem trans {first second third : Object} (left : first.IsRecolored second)
    (right : second.IsRecolored third) : first.IsRecolored third := by
  unfold IsRecolored at left right ⊢
  rw [left] at right
  exact right

theorem redden (object : Object) : object.IsRecolored object.redden := rfl

theorem calm (object : Object) : object.IsRecolored object.calm := by
  rw [Object.calm]
  split
  · rfl
  · rfl

end Object.IsRecolored

theorem Object.meet_isRecolored (first second : Object) :
    first.IsRecolored (first.meet second).1 ∧ second.IsRecolored (first.meet second).2 := by
  rw [meet]
  split
  · exact ⟨.redden first, .redden second⟩
  · exact ⟨.calm first, .calm second⟩

namespace Scene

/-- The second entry has the name of the first, and its object but for the color. -/
def IsRepainted (first second : String × Object) : Prop :=
  first.1 = second.1 ∧ first.2.IsRecolored second.2

theorem IsRepainted.trans {first second third : String × Object}
    (left : IsRepainted first second) (right : IsRepainted second third) :
    IsRepainted first third :=
  ⟨left.1.trans right.1, left.2.trans right.2⟩

theorem forall₂_isRepainted_trans {first second third : List (String × Object)}
    (left : List.Forall₂ IsRepainted first second)
    (right : List.Forall₂ IsRepainted second third) : List.Forall₂ IsRepainted first third := by
  induction left generalizing third with
  | nil => exact right
  | cons same _ ih =>
      cases right with
      | cons sameToo rest => exact .cons (same.trans sameToo) (ih rest)

theorem meetAll_isRepainted (first : Object) (entries : List (String × Object)) :
    first.IsRecolored (meetAll first entries).1 ∧
      List.Forall₂ IsRepainted entries (meetAll first entries).2 := by
  induction entries generalizing first with
  | nil => exact ⟨.refl first, .nil⟩
  | cons entry rest ih =>
      obtain ⟨name, other⟩ := entry
      obtain ⟨ofFirst, ofOther⟩ := first.meet_isRecolored other
      obtain ⟨later, others⟩ := ih (first.meet other).1
      exact ⟨ofFirst.trans later, .cons ⟨rfl, ofOther⟩ others⟩

theorem collisionPass_isRepainted (entries : List (String × Object)) :
    List.Forall₂ IsRepainted entries (collisionPass entries) := by
  fun_induction collisionPass entries with
  | case1 => exact .nil
  | case2 name object rest met ih =>
      obtain ⟨ofFirst, ofOthers⟩ := meetAll_isRepainted object rest
      exact .cons ⟨rfl, ofFirst⟩ (forall₂_isRepainted_trans ofOthers ih)

theorem map_fst_of_isRepainted {entries painted : List (String × Object)}
    (repainted : List.Forall₂ IsRepainted entries painted) :
    painted.map Prod.fst = entries.map Prod.fst := by
  induction repainted with
  | nil => rfl
  | cons same _ ih => rw [List.map_cons, List.map_cons, same.1, ih]

/-- An object with the color of the first entry of a name. -/
def recolor (painted : List (String × Object)) (name : String) (object : Object) : Object :=
  { object with color := ((painted.lookup name).map Object.color).getD object.color }

theorem lookup_of_isRepainted {entries painted : List (String × Object)}
    (repainted : List.Forall₂ IsRepainted entries painted) (name : String) :
    painted.lookup name = (entries.lookup name).map (recolor painted name) := by
  induction repainted with
  | nil => rfl
  | @cons entry other _ _ same _ ih =>
      obtain ⟨entryName, object⟩ := entry
      obtain ⟨otherName, otherObject⟩ := other
      obtain ⟨sameName, recolored⟩ := same
      cases sameName
      unfold recolor at ih ⊢
      cases found : name == entryName with
      | true =>
          simp only [List.lookup_cons, found, Option.map_some, Option.getD_some]
          exact congrArg some recolored
      | false =>
          simp only [List.lookup_cons, found]
          exact ih

end Scene

end SceneScript
