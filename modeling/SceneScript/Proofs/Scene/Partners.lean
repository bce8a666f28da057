import SceneScript.Proofs.Scene.Encounters
import SceneScript.Proofs.Scene.Index

/-!
# Colors after a collision pass, by position

The comparisons of an object come in the order of its partners, so that the last one is with
the last object of the scene, or, for that object itself, with the one before it. This partner
alone decides on red. All other partners only decide whether black takes the place of the
color before.
-/

set_option autoImplicit false

namespace SceneScript.Scene

variable {entries : List (String × Object)} {position other : Nat} {entry : String × Object}

/-- The objects at two positions are collidable and their boxes meet; the earlier object is
compared with the later one. -/
def HitAt (entries : List (String × Object)) (position other : Nat) : Prop :=
  ∃ earlier later, entries[min position other]? = some earlier ∧
    entries[max position other]? = some later ∧ earlier.2.collidable = true ∧
    later.2.collidable = true ∧ earlier.2.overlaps later.2 = true

/-- The position of the object with which the one at a position is compared last. -/
def lastPartner (count position : Nat) : Nat :=
  if position = count - 1 then count - 2 else count - 1

theorem hits_eq_true_iff {first second : Object} :
    first.hits second = true ↔ first.collidable = true ∧ second.collidable = true ∧
      first.overlaps second = true := by
  rw [Object.hits, Bool.and_eq_true, Bool.and_eq_true, and_assoc]

/-! ## Encounters by position -/

theorem hitAt_of_before (found : entries[position]? = some entry) (before : other < position) :
    HitAt entries position other ↔
      entries[other]?.map (fun partner => partner.2.hits entry.2) = some true := by
  have least : min position other = other := Nat.min_eq_right (Nat.le_of_lt before)
  have greatest : max position other = position := Nat.max_eq_left (Nat.le_of_lt before)
  simp only [HitAt, least, greatest, found, Option.map_eq_some_iff, hits_eq_true_iff]
  constructor
  · rintro ⟨earlier, later, isEarlier, isLater, meets⟩
    cases isLater
    exact ⟨earlier, isEarlier, meets⟩
  · rintro ⟨earlier, isEarlier, meets⟩
    exact ⟨earlier, entry, isEarlier, rfl, meets⟩

theorem hitAt_of_behind (found : entries[position]? = some entry) (behind : position < other) :
    HitAt entries position other ↔
      entries[other]?.map (fun partner => entry.2.hits partner.2) = some true := by
  have least : min position other = position := Nat.min_eq_left (Nat.le_of_lt behind)
  have greatest : max position other = other := Nat.max_eq_right (Nat.le_of_lt behind)
  simp only [HitAt, least, greatest, found, Option.map_eq_some_iff, hits_eq_true_iff]
  constructor
  · rintro ⟨earlier, later, isEarlier, isLater, meets⟩
    cases isEarlier
    exact ⟨later, isLater, meets⟩
  · rintro ⟨later, isLater, meets⟩
    exact ⟨entry, later, rfl, isLater, meets⟩

theorem length_encounters (inside : position < entries.length) (object : Object) :
    (encounters entries position object).length = entries.length - 1 := by
  simp only [encounters, List.length_append, List.length_map, List.length_take, List.length_drop]
  omega

/-- The partners of an object are the others in their order: those before it have their own
position, and those behind it are one place further on. -/
theorem getElem?_encounters_eq_true_iff (found : entries[position]? = some entry) (place : Nat) :
    (encounters entries position entry.2)[place]? = some true ↔
      HitAt entries position (if place < position then place else place + 1) := by
  have inside : position < entries.length := (List.getElem?_eq_some_iff.mp found).1
  have front : ((entries.take position).map fun partner => partner.2.hits entry.2).length =
      position := by
    simp only [List.length_map, List.length_take, Nat.min_eq_left (Nat.le_of_lt inside)]
  rw [encounters]
  split
  · rename_i before
    rw [List.getElem?_append_left (by omega), List.getElem?_map, List.getElem?_take_of_lt before,
      hitAt_of_before found before]
  · rename_i behind
    have shift : position + 1 + (place - position) = place + 1 := by omega
    rw [List.getElem?_append_right (by omega), front, List.getElem?_map, List.getElem?_drop, shift,
      hitAt_of_behind found (by omega)]

theorem true_mem_encounters_iff (found : entries[position]? = some entry) :
    true ∈ encounters entries position entry.2 ↔
      ∃ other, other ≠ position ∧ HitAt entries position other := by
  rw [List.mem_iff_getElem?]
  simp only [getElem?_encounters_eq_true_iff found]
  constructor
  · rintro ⟨place, hit⟩
    refine ⟨_, ?_, hit⟩
    split <;> omega
  · rintro ⟨other, differs, hit⟩
    by_cases before : other < position
    · exact ⟨other, by rwa [if_pos before]⟩
    · refine ⟨other - 1, ?_⟩
      rwa [if_neg (by omega), Nat.sub_add_cancel (by omega)]

theorem getLast?_encounters_eq_true_iff (found : entries[position]? = some entry)
    (several : 2 ≤ entries.length) :
    (encounters entries position entry.2).getLast? = some true ↔
      HitAt entries position (lastPartner entries.length position) := by
  have inside : position < entries.length := (List.getElem?_eq_some_iff.mp found).1
  have partner : (if entries.length - 1 - 1 < position then entries.length - 1 - 1
      else entries.length - 1 - 1 + 1) = lastPartner entries.length position := by
    unfold lastPartner
    split <;> split <;> omega
  rw [List.getLast?_eq_getElem?, length_encounters inside, getElem?_encounters_eq_true_iff found,
    partner]

/-! ## Colors -/

theorem color_of_last_hit {color : String} {hits : List Bool} (last : hits.getLast? = some true) :
    hits.foldl colorAfter color = collisionColor := by
  rw [foldl_colorAfter, last]

theorem color_of_no_last_hit {color : String} {hits : List Bool} (some : hits ≠ [])
    (last : ¬ hits.getLast? = Option.some true) :
    hits.foldl colorAfter color =
      if color = collisionColor ∨ true ∈ hits then restColor else color := by
  rw [foldl_colorAfter]
  cases ends : hits.getLast? with
  | none => exact absurd (List.getLast?_eq_none_iff.mp ends) some
  | some hit =>
      cases hit with
      | true => exact absurd ends last
      | false => rfl

theorem collide_of_few {scene : Scene} (few : scene.size ≤ 1) : scene.collide = scene := by
  obtain ⟨⟨entries⟩, index⟩ := scene
  cases entries with
  | nil => simp [collide, toList, collisionPass]
  | cons entry rest =>
      cases rest with
      | nil =>
          obtain ⟨name, object⟩ := entry
          simp [collide, toList, collisionPass, meetAll]
      | cons other rest => simp [size] at few

/-- A collision pass keeps the names in their order and all of an object but the color. With
one object or none it does nothing. Otherwise an object that hits its last partner is red; any
other is black if it was red or hits some object, and else it keeps its color. -/
theorem colors_of_collide (scene : Scene) :
    scene.collide.names = scene.names ∧ scene.collide.index = scene.index ∧
    (scene.size ≤ 1 → scene.collide = scene) ∧
    ∀ position name before, scene.toList[position]? = some (name, before) →
      ∃ color, scene.collide.toList[position]? = some (name, { before with color := color }) ∧
        (2 ≤ scene.size →
          (HitAt scene.toList position (lastPartner scene.size position) → color = "red") ∧
          (¬ HitAt scene.toList position (lastPartner scene.size position) →
            (before.color = "red" ∨
              (∃ other, other ≠ position ∧ HitAt scene.toList position other)) →
            color = "black") ∧
          (¬ HitAt scene.toList position (lastPartner scene.size position) →
            ¬ (before.color = "red" ∨
              ∃ other, other ≠ position ∧ HitAt scene.toList position other) →
            color = before.color)) := by
  refine ⟨scene.names_collide, rfl, collide_of_few,
    fun position name before found => ?_⟩
  have painted : scene.collide.toList[position]? =
      some (name, before.paintedBy (encounters scene.toList position before)) := by
    rw [collide, toList, List.toList_toArray, getElem?_collisionPass, found, Option.map_some]
  refine ⟨_, painted, fun several => ?_⟩
  have inside : position < scene.toList.length := (List.getElem?_eq_some_iff.mp found).1
  have compared : encounters scene.toList position before ≠ [] := by
    rw [← List.length_pos_iff, length_encounters inside]
    exact Nat.sub_pos_of_lt several
  have decides := getLast?_encounters_eq_true_iff found several
  have meets := true_mem_encounters_iff found
  refine ⟨fun last => color_of_last_hit (decides.mpr last), fun missed red => ?_,
    fun missed other => ?_⟩
  · exact (color_of_no_last_hit compared (mt decides.mp missed)).trans
      (if_pos (red.imp_right meets.mpr))
  · exact (color_of_no_last_hit compared (mt decides.mp missed)).trans
      (if_neg fun red => other (red.imp_right meets.mp))

end SceneScript.Scene
