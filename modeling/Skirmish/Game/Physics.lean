import Skirmish.Geometry.Vec2
import Skirmish.Random.ChaCha

/-!
# Movement and contact

Players are circles of radius `20`, projectiles of radius `10`; two circles overlap when their
centres are closer than the sum of the radii, strictly. Positions move by `velocity · dt`.
Every map is `1000 × 1000`, and players spawn uniformly inside a margin of one player radius.
-/

namespace Skirmish

/-- The radius of a player. -/
def playerRadius : Float32 := 20

/-- The radius of a projectile. -/
def projectileRadius : Float32 := 10

/-- The speed of a moving player. -/
def playerSpeed : Float32 := 200

/-- The size of a map. -/
structure MapBounds where
  width : Float32
  height : Float32

/-- The bounds of a map: the same for every map id. -/
def MapBounds.forMap (_mapId : Nat) : MapBounds := ⟨1000, 1000⟩

/-- The position after moving with `velocity` for `dt` seconds. -/
def integrate (position velocity : Vec2) (dt : Float32) : Vec2 := position + velocity * dt

/-- The velocity for a movement intent: its direction at player speed, or rest. -/
def movementVelocity (intent : Vec2) : Vec2 := intent.normalized * playerSpeed

/-- Whether two circles overlap. -/
def circlesOverlap (a : Vec2) (ra : Float32) (b : Vec2) (rb : Float32) : Bool :=
  a.distance b < ra + rb

/-- The contact point and normal of two centres: their midpoint and the unit vector from `b`
to `a`. -/
def contact (a b : Vec2) : Vec2 × Vec2 :=
  (⟨(a.x + b.x) / 2, (a.y + b.y) / 2⟩, (a - b).normalized)

/-- A spawn point drawn from `g`: `x` first, then `y`. -/
def randomSpawn (g : Random.ChaCha8) (bounds : MapBounds) : Vec2 × Random.ChaCha8 :=
  let (x, g) := g.uniform playerRadius (bounds.width - playerRadius)
  let (y, g) := g.uniform playerRadius (bounds.height - playerRadius)
  (⟨x, y⟩, g)

end Skirmish
