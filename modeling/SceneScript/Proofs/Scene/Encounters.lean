import Mathlib.Data.List.Induction
import SceneScript.Proofs.Scene.Collision

/-!
# The color that a collision pass leaves

In a pass, an object is compared with every other one, in the order of the scene. Whether
two objects hit each other does not depend on colors, so the results of these comparisons
are known before the pass, and the color afterwards follows from them: the last one decides
on red, and all of them on whether black takes the place of the color before. A second pass
finds the same results and changes nothing.
-/

set_option autoImplicit false

namespace SceneScript

/-! ## Colors -/

/-- The color after one comparison; `hit` is its result. -/
def colorAfter (color : String) (hit : Bool) : String :=
  if hit then collisionColor else if color = collisionColor then restColor else color

theorem foldl_colorAfter (color : String) (hits : List Bool) :
    hits.foldl colorAfter color =
      match hits.getLast? with
      | none => color
      | some true => collisionColor
      | some false => if color = collisionColor ∨ true ∈ hits then restColor else color := by
  have differ : ¬ restColor = collisionColor := by decide
  -- From the end: only the last comparison can leave red, and whether it finds red depends
  -- on the one before it.
  induction hits using List.reverseRecOn with
  | nil => rfl
  | append_singleton hits hit ih =>
      rw [List.foldl_concat, ih, List.getLast?_concat]
      cases hit with
      | true => rfl
      | false =>
          obtain rfl | ⟨earlier, last, rfl⟩ := List.eq_nil_or_concat hits
          · by_cases red : color = collisionColor <;> simp [colorAfter, red]
          · cases last with
            | true => simp [colorAfter]
            | false =>
                by_cases red : color = collisionColor ∨ true ∈ earlier
                · simp [colorAfter, red, differ]
                · simp [colorAfter, not_or.mp red]

theorem foldl_colorAfter_again (color : String) (hits : List Bool) :
    hits.foldl colorAfter (hits.foldl colorAfter color) = hits.foldl colorAfter color := by
  have differ : ¬ restColor = collisionColor := by decide
  simp only [foldl_colorAfter]
  cases hits.getLast? with
  | none => rfl
  | some last =>
      cases last with
      | true => rfl
      | false =>
          by_cases hit : true ∈ hits
          · simp [hit]
          · by_cases red : color = collisionColor
            · simp [hit, red, differ]
            · simp [hit, red]

namespace Object

/-- An object after comparisons with these results. -/
def paintedBy (object : Object) (hits : List Bool) : Object :=
  { object with color := hits.foldl colorAfter object.color }

theorem paintedBy_append (object : Object) (first second : List Bool) :
    (object.paintedBy first).paintedBy second = object.paintedBy (first ++ second) := by
  simp only [paintedBy, List.foldl_append]

theorem paintedBy_again (object : Object) (hits : List Bool) :
    (object.paintedBy hits).paintedBy hits = object.paintedBy hits := by
  simp only [paintedBy, foldl_colorAfter_again]

theorem IsRecolored.hits_eq {first second painted other : Object}
    (left : first.IsRecolored painted) (right : second.IsRecolored other) :
    painted.hits other = first.hits second := by
  unfold IsRecolored at left right
  rw [left, right]
  rfl

theorem meet_eq (first second : Object) :
    first.meet second =
      (first.paintedBy [first.hits second], second.paintedBy [first.hits second]) := by
  have calmed (object : Object) : object.calm = object.paintedBy [false] := by
    simp only [calm, paintedBy, List.foldl_cons, List.foldl_nil, colorAfter]
    split <;> rfl
  cases hit : first.hits second with
  | true => simp only [meet, hit]; rfl
  | false => simp only [meet, hit, calmed]; rfl

end Object

/-! ## One against the others -/

namespace Scene

theorem meetAll_eq (first : Object) (entries : List (String × Object)) :
    meetAll first entries =
      (first.paintedBy (entries.map fun entry => first.hits entry.2),
        entries.map fun entry => (entry.1, entry.2.paintedBy [first.hits entry.2])) := by
  induction entries generalizing first with
  | nil => rfl
  | cons entry rest ih =>
      have sameHits (other : Object) :
          (first.paintedBy [first.hits entry.2]).hits other = first.hits other :=
        Object.IsRecolored.hits_eq rfl (.refl other)
      simp only [meetAll, Object.meet_eq, ih, sameHits, Object.paintedBy_append, List.map_cons,
        List.singleton_append]

/-- What an object at a position finds in a pass: first the objects before it compare
themselves with it, then it compares itself with those behind. -/
def encounters (entries : List (String × Object)) (position : Nat) (object : Object) : List Bool :=
  (entries.take position).map (fun entry => entry.2.hits object) ++
    (entries.drop (position + 1)).map fun entry => object.hits entry.2

theorem map_of_isRepainted {entries painted : List (String × Object)}
    (repainted : List.Forall₂ IsRepainted entries painted) {test other : Object → Bool}
    (same : ∀ before after : Object, before.IsRecolored after → other after = test before) :
    (painted.map fun entry => other entry.2) = entries.map fun entry => test entry.2 := by
  induction repainted with
  | nil => rfl
  | cons first _ ih => simp only [List.map_cons, same _ _ first.2, ih]

theorem encounters_of_isRepainted {entries painted : List (String × Object)}
    (repainted : List.Forall₂ IsRepainted entries painted) (position : Nat)
    {object other : Object} (recolored : object.IsRecolored other) :
    encounters painted position other = encounters entries position object := by
  have before := map_of_isRepainted (List.forall₂_take position repainted)
    fun _ _ same => same.hits_eq recolored
  have behind := map_of_isRepainted (List.forall₂_drop (position + 1) repainted)
    fun _ _ same => recolored.hits_eq same
  simp only [encounters, before, behind]

/-- A pass paints each object by what it finds. -/
theorem getElem?_collisionPass (entries : List (String × Object)) (position : Nat) :
    (collisionPass entries)[position]? = entries[position]?.map fun entry =>
      (entry.1, entry.2.paintedBy (encounters entries position entry.2)) := by
  fun_induction collisionPass entries generalizing position with
  | case1 => rfl
  | case2 name object rest met ih =>
      cases position with
      | zero =>
          simp only [met, meetAll_eq, List.getElem?_cons_zero, Option.map_some, encounters,
            List.take_zero, List.map_nil, List.nil_append, Nat.zero_add, List.drop_one,
            List.tail_cons]
      | succ position =>
          have others : met.2[position]? = rest[position]?.map fun entry =>
              (entry.1, entry.2.paintedBy [object.hits entry.2]) := by
            simp only [met, meetAll_eq, List.getElem?_map]
          rw [List.getElem?_cons_succ, List.getElem?_cons_succ, ih, others]
          cases rest[position]? with
          | none => rfl
          | some entry =>
              have same := encounters_of_isRepainted (meetAll_isRepainted object rest).2 position
                (show entry.2.IsRecolored (entry.2.paintedBy [object.hits entry.2]) from rfl)
              simp only [Option.map_some, met, same, Object.paintedBy_append]
              rfl

/-! ## A second pass -/

theorem collisionPass_again (entries : List (String × Object)) :
    collisionPass (collisionPass entries) = collisionPass entries := by
  refine List.ext_getElem? fun position => ?_
  have first := getElem?_collisionPass entries position
  rw [getElem?_collisionPass (collisionPass entries) position, first]
  cases entries[position]? with
  | none => rfl
  | some entry =>
      have same := encounters_of_isRepainted (collisionPass_isRepainted entries) position
        (show entry.2.IsRecolored (entry.2.paintedBy (encounters entries position entry.2)) from rfl)
      simp only [Option.map_some, same, Object.paintedBy_again]

/-- Running the pass again at once changes nothing. -/
theorem collide_again (scene : Scene) : scene.collide.collide = scene.collide := by
  simp only [collide, toList, collisionPass_again]

end Scene

end SceneScript
