import Skirmish.Binary.Format

/-!
# Conversions and the exact remainder

Narrowing a 64-bit float to 32 bits rounds its exact value to the nearest 32-bit float (ties to
even, overflow to infinity); widening is exact. `Float32.remainder` is the C `fmodf`: the
remainder of truncating division, `x - n·y` with `n` the integer part of `x / y`, which is always
representable and is computed here exactly on the mantissas.
-/

namespace Float

/-- The 32-bit float nearest `x`: NaN stays NaN, infinities and zeros keep their sign. -/
def toSingle (x : Float) : Float32 :=
  match x.binaryValue with
  | .nan => Float32.ofBits Skirmish.Binary.BinaryFormat.single.nanBits.toUInt32
  | .infinite negative =>
    Float32.ofBits (Skirmish.Binary.BinaryFormat.single.infinityBits negative).toUInt32
  | .zero negative => Float32.ofDyadic negative 0 0
  | .finite negative m e _ => Float32.ofDyadic negative m e

end Float

namespace Float32

/-- The 64-bit float equal to `x`. -/
def toDouble (x : Float32) : Float :=
  match x.binaryValue with
  | .nan => Float.ofBits Skirmish.Binary.BinaryFormat.double.nanBits.toUInt64
  | .infinite negative =>
    Float.ofBits (Skirmish.Binary.BinaryFormat.double.infinityBits negative).toUInt64
  | .zero negative => Float.ofDyadic negative 0 0
  | .finite negative m e _ => Float.ofDyadic negative m e

/-- The quiet NaN. -/
def quietNaN : Float32 := Float32.ofBits Skirmish.Binary.BinaryFormat.single.nanBits.toUInt32

/-- The remainder of `x` by `y` with the quotient truncated toward zero, as C's `fmodf`: NaN
when `x` is infinite or `y` is zero, `x` itself when `y` is infinite or `x` is zero. The sign
is that of `x`; both operands are put on the finer of their two grids, where the remainder is
the natural-number remainder of the mantissas. -/
def remainder (x y : Float32) : Float32 :=
  match x.binaryValue, y.binaryValue with
  | .nan, _ => quietNaN
  | _, .nan => quietNaN
  | .infinite _, _ => quietNaN
  | _, .zero _ => quietNaN
  | .zero _, _ => x
  | .finite _ _ _ _, .infinite _ => x
  | .finite negative mx ex _, .finite _ my ey _ =>
    let e₀ := min ex ey
    Float32.ofDyadic negative
      (mx * Nat.pow 2 (ex - e₀).toNat % (my * Nat.pow 2 (ey - e₀).toNat)) e₀

end Float32
