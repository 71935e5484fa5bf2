/-!
# Binary floating-point formats

An IEEE-754 binary interchange format is given by the widths of its exponent and fraction fields.
`BinaryFormat.decode` reads what a bit pattern denotes, and `BinaryFormat.round` writes the bit
pattern of the float nearest `±m · 2^e`, ties to the even mantissa, overflowing to infinity. Both
work on natural numbers only, so the same definitions serve the 32-bit and the 64-bit format and
can be evaluated in proofs.
-/

namespace Skirmish.Binary

/-- An IEEE-754 binary interchange format, given by the widths of its fields. -/
structure BinaryFormat where
  /-- Stored fraction bits, without the hidden bit. -/
  fractionBits : Nat
  /-- Biased exponent bits. -/
  exponentBits : Nat

/-- The 32-bit format. -/
def BinaryFormat.single : BinaryFormat := ⟨23, 8⟩

/-- The 64-bit format. -/
def BinaryFormat.double : BinaryFormat := ⟨52, 11⟩

/-- The exponent bias, `2^(w-1) - 1`. -/
def BinaryFormat.bias (f : BinaryFormat) : Nat := Nat.pow 2 (f.exponentBits - 1) - 1

/-- The biased exponent of infinities and NaNs, all ones. -/
def BinaryFormat.topExponent (f : BinaryFormat) : Nat := Nat.pow 2 f.exponentBits - 1

/-- The exponent of the last mantissa bit of the subnormals, the finest in the format. -/
def BinaryFormat.leastQuantum (f : BinaryFormat) : Int := 1 - (f.bias : Int) - f.fractionBits

/-- The sign bit, set for a negative value. -/
def BinaryFormat.signBit (f : BinaryFormat) (negative : Bool) : Nat :=
  if negative then Nat.pow 2 (f.fractionBits + f.exponentBits) else 0

/-- The bits of an infinity. -/
def BinaryFormat.infinityBits (f : BinaryFormat) (negative : Bool) : Nat :=
  f.signBit negative + f.topExponent * Nat.pow 2 f.fractionBits

/-- The bits of the quiet NaN with a clear sign. -/
def BinaryFormat.nanBits (f : BinaryFormat) : Nat :=
  f.topExponent * Nat.pow 2 f.fractionBits + Nat.pow 2 (f.fractionBits - 1)

/-- What the bits of a float denote. A finite nonzero value is `mantissa · 2^exponent`;
`lowerHalved` marks a mantissa whose neighbour below lies half as far as its neighbour above. -/
inductive BinaryValue where
  | nan
  | infinite (negative : Bool)
  | zero (negative : Bool)
  | finite (negative : Bool) (mantissa : Nat) (exponent : Int) (lowerHalved : Bool)
  deriving Repr, DecidableEq

/-- Reads the sign, exponent and fraction fields of `bits` in format `f`. -/
def BinaryFormat.decode (f : BinaryFormat) (bits : Nat) : BinaryValue :=
  let fraction := bits % Nat.pow 2 f.fractionBits
  let biased := (bits / Nat.pow 2 f.fractionBits) % Nat.pow 2 f.exponentBits
  let negative := (bits / Nat.pow 2 (f.fractionBits + f.exponentBits)) % 2 == 1
  if biased == f.topExponent then
    if fraction == 0 then .infinite negative else .nan
  else if biased == 0 then
    if fraction == 0 then .zero negative
    else .finite negative fraction f.leastQuantum false
  else
    .finite negative (fraction + Nat.pow 2 f.fractionBits) ((biased : Int) - f.bias - f.fractionBits)
      (fraction == 0 && biased > 1)

/-- `m / 2^s` rounded to the nearest natural number, a tie going to the even one. -/
def roundShift (m s : Nat) : Nat :=
  if s = 0 then m
  else
    let q := m / Nat.pow 2 s
    let r := m % Nat.pow 2 s
    let half := Nat.pow 2 (s - 1)
    if r < half then q
    else if half < r then q + 1
    else if q % 2 = 0 then q else q + 1

/-- The bits of the float of format `f` nearest `±m · 2^e`, a tie going to the even mantissa;
values beyond the largest finite float round to infinity, and `m = 0` gives a signed zero.

The last mantissa bit gets weight `2^q`, where `q` keeps `fractionBits + 1` significant bits but
never goes below the subnormal quantum; a rounding carry that adds a bit moves `q` up by one. -/
def BinaryFormat.round (f : BinaryFormat) (negative : Bool) (m : Nat) (e : Int) : Nat :=
  if m = 0 then f.signBit negative
  else
    let top := (Nat.log2 m : Int) + e
    let q₀ := max (top - f.fractionBits) f.leastQuantum
    let n₀ := if q₀ ≤ e then m * Nat.pow 2 (e - q₀).toNat else roundShift m (q₀ - e).toNat
    let carried := n₀ = Nat.pow 2 (f.fractionBits + 1)
    let n := if carried then n₀ / 2 else n₀
    let q := if carried then q₀ + 1 else q₀
    if n < Nat.pow 2 f.fractionBits then f.signBit negative + n
    else
      let biased := q + f.bias + f.fractionBits
      if f.topExponent ≤ biased then f.infinityBits negative
      else f.signBit negative + biased.toNat * Nat.pow 2 f.fractionBits + (n - Nat.pow 2 f.fractionBits)

end Skirmish.Binary

namespace Float32

/-- What the bits of a 32-bit float denote. -/
def binaryValue (x : Float32) : Skirmish.Binary.BinaryValue :=
  Skirmish.Binary.BinaryFormat.single.decode x.toBits.toNat

/-- The 32-bit float nearest `±m · 2^e`. -/
def ofDyadic (negative : Bool) (m : Nat) (e : Int) : Float32 :=
  Float32.ofBits (Skirmish.Binary.BinaryFormat.single.round negative m e).toUInt32

end Float32

namespace Float

/-- What the bits of a 64-bit float denote. -/
def binaryValue (x : Float) : Skirmish.Binary.BinaryValue :=
  Skirmish.Binary.BinaryFormat.double.decode x.toBits.toNat

/-- The 64-bit float nearest `±m · 2^e`. -/
def ofDyadic (negative : Bool) (m : Nat) (e : Int) : Float :=
  Float.ofBits (Skirmish.Binary.BinaryFormat.double.round negative m e).toUInt64

end Float
