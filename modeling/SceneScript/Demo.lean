/-!
# The script that runs when none is given
-/

set_option autoImplicit false

namespace SceneScript

/-- The lines of a script with a player, four coins and a wall. -/
def demoLines : List String :=
  ["// write alpha code here",
    "object.create(square, player);",
    "object.color(player, blue);",
    "",
    "for(i=0;i<4;i=i+1)\x7b",
    "    object.create(circle, coin-i);",
    "    object.color(coin-i, gold);",
    "\x7d",
    "object.move(coin-0, 200, 80);",
    "object.move(coin-1, 300, 160);",
    "object.move(coin-2, 400, 240);",
    "object.move(coin-3, 500, 320);",
    "",
    "object.create(triangle, wall);",
    "object.move(wall, 600, 400);",
    "object.collidable(wall, false);"]

/-- The script that runs when none is given. -/
def demoScript : String :=
  String.join (demoLines.map (· ++ "\n"))

end SceneScript
