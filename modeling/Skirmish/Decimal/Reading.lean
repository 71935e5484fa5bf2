/-!
# Reading a decimal as a 64-bit float, the fast way

A JSON reader that does not promise exact rounding reads `±s · 10^x` in two rounded steps: the
significand `s` (at most 64 bits) is rounded to a float, and the result is multiplied or divided
by the float nearest `10^|x|`, taken from a table of the powers `10^0 … 10^308`. An exponent below
the table divides by `10^308` until it fits (or the value has become zero); an exponent above the
table, or a product that overflows, is out of range.

The two roundings make the result differ from the nearest float in the last place for some
inputs: `1e-45` reads as `1.0000000000000001e-45`. Every number this library reads or re-reads
goes through `approximate`, so its answers agree with such a reader's bit for bit.
-/

namespace Skirmish.Decimal

/-- The last exponent of the table of powers of ten. -/
def tableTop : Nat := 308

/-- The float nearest `10^i`; for `i ≤ 308` this is the table entry. -/
def powerOfTen (i : Nat) : Float := Float.ofScientific 1 false i

/-- Scales `f` by `10^exponent` with the table, for at most `fuel` divisions by `10^308`. -/
def scaleByTen (f : Float) (exponent : Int) : Nat → Option Float
  | 0 => some f
  | fuel + 1 =>
    if exponent.natAbs ≤ tableTop then
      if 0 ≤ exponent then
        let g := f * powerOfTen exponent.toNat
        if g.isInf then none else some g
      else some (f / powerOfTen exponent.natAbs)
    else if f == 0 then some f
    else if 0 ≤ exponent then none
    else scaleByTen (f / powerOfTen tableTop) (exponent + tableTop) fuel

/-- The float read for `±significand · 10^exponent`, or `none` when it is out of range.
The significand is below `2^64`; each step of `scaleByTen` moves the exponent `308` closer to
the table, so `|exponent| + 1` steps always suffice. -/
def approximate (negative : Bool) (significand : Nat) (exponent : Int) : Option Float :=
  (scaleByTen significand.toUInt64.toFloat exponent (exponent.natAbs + 1)).map
    fun f => if negative then -f else f

end Skirmish.Decimal
