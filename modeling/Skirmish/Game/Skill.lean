import Skirmish.Geometry.Vec2

/-!
# Skills

Three skills fire projectiles: the basic shot, a spread of three, and a slow piercing shot. A
skill fires `projectileCount` projectiles fanned out `spreadDegrees` apart around the aim
direction; the offsets are computed in 32-bit floats as `(i - (n - 1) / 2) · spread`, converted
to radians.
-/

namespace Skirmish

/-- The projectile parameters of a skill. -/
structure SkillStats where
  projectileCount : Nat
  spreadDegrees : Float32
  projectileSpeed : Float32
  damage : Int
  lifetime : Float32
  cooldown : Float32
  piercing : Bool

/-- The skill table: skills `1`, `2` and `3`. -/
def SkillStats.forSkill : Nat → Option SkillStats
  | 1 => some ⟨1, 0, 500, 10, 2.0, 0.5, false⟩
  | 2 => some ⟨3, 15, 450, 8, 1.5, 3.0, false⟩
  | 3 => some ⟨1, 0, 400, 15, 3.0, 5.0, true⟩
  | _ => none

/-- The angular offsets in radians of the projectiles of one use, in firing order. -/
def SkillStats.offsets (s : SkillStats) : List Float32 :=
  let centre : Float32 := (Float32.ofNat s.projectileCount - 1) / 2
  (List.range s.projectileCount).map fun i => toRadians ((Float32.ofNat i - centre) * s.spreadDegrees)

end Skirmish
