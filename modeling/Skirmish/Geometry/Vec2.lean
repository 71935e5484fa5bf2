import Skirmish.Binary.Convert

/-!
# Plane vectors and angles

Positions, velocities and directions are pairs of 32-bit floats, and every operation is the
32-bit float operation written out: no fused multiply-add, each product and sum rounded on its
own. Angles are kept in degrees in `[0, 360)`: `normalizeDegrees` takes the remainder of the
truncating division by `360`, moves a negative remainder up by `360`, and maps the `360` that
this addition can round to back to `0`.

`Vec2.normalized` leaves vectors no longer than the 32-bit machine epsilon at zero, so it never
divides by a length that is zero or denormal.
-/

namespace Skirmish

/-- A plane vector of 32-bit floats. -/
structure Vec2 where
  x : Float32
  y : Float32

namespace Vec2

/-- The zero vector. -/
def zero : Vec2 := ⟨0, 0⟩

instance : Add Vec2 := ⟨fun a b => ⟨a.x + b.x, a.y + b.y⟩⟩
instance : Sub Vec2 := ⟨fun a b => ⟨a.x - b.x, a.y - b.y⟩⟩
instance : HMul Vec2 Float32 Vec2 := ⟨fun a s => ⟨a.x * s, a.y * s⟩⟩

/-- Equality of both coordinates as floats: `-0` equals `0`, NaN equals nothing. -/
def sameAs (a b : Vec2) : Bool := a.x == b.x && a.y == b.y

/-- The 32-bit machine epsilon, `2^-23`. -/
def epsilon : Float32 := Float32.ofBits 0x34000000

/-- The Euclidean length. -/
def length (v : Vec2) : Float32 := (v.x * v.x + v.y * v.y).sqrt

/-- The distance between two points. -/
def distance (a b : Vec2) : Float32 := (a - b).length

/-- The unit vector in the direction of `v`, or zero when `v` is no longer than `epsilon`. -/
def normalized (v : Vec2) : Vec2 :=
  let len := v.length
  if epsilon < len then ⟨v.x / len, v.y / len⟩ else zero

/-- `v` turned counter-clockwise by `radians`. -/
def rotated (v : Vec2) (radians : Float32) : Vec2 :=
  let s := radians.sin
  let c := radians.cos
  ⟨v.x * c - v.y * s, v.x * s + v.y * c⟩

end Vec2

/-- The 32-bit float nearest `π`. -/
def pi32 : Float32 := Float32.ofBits 0x40490FDB

/-- Radians per degree, `π / 180` in 32-bit floats. -/
def radiansPerDegree : Float32 := pi32 / 180

/-- Degrees per radian, the 32-bit float nearest `180 / π`. -/
def degreesPerRadian : Float32 := Float32.ofBits 0x42652EE1

/-- Degrees to radians. -/
def toRadians (degrees : Float32) : Float32 := degrees * radiansPerDegree

/-- Radians to degrees. -/
def toDegrees (radians : Float32) : Float32 := radians * degreesPerRadian

/-- An angle wrapped into `[0, 360)`; NaN and infinities give NaN. -/
def normalizeDegrees (degrees : Float32) : Float32 :=
  let r := Float32.remainder degrees 360
  let wrapped := if r < 0 then r + 360 else r
  if 360 ≤ wrapped then 0 else wrapped

/-- The heading of `v` in degrees, in `[0, 360)`. -/
def Vec2.headingDegrees (v : Vec2) : Float32 :=
  normalizeDegrees (toDegrees (Float32.atan2 v.y v.x))

end Skirmish
