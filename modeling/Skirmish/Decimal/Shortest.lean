import Skirmish.Binary.Format

/-!
# The shortest decimal that reads back as a binary float

A finite binary float is `m · 2^e`. Every real number in its rounding interval reads back as the
same float under round-to-nearest-even; the interval reaches half a unit on each side, its ends
included exactly when `m` is even, and its lower half is halved where `m` is the smallest
mantissa of its binade. `shortest` scans the decimal grids `10^k` from coarse to fine: the first
grid with a point in the interval gives the digit count, and on that grid the point nearest the
float is taken, an exact tie going to the even digit string. All arithmetic is on natural numbers.

The search works on what `Skirmish.Binary.BinaryFormat.decode` reads from the bits, so the same
definitions serve 32-bit and 64-bit floats.
-/

namespace Skirmish.Decimal

/-- A decimal `digits · 10^exponent`. -/
structure Digits where
  digits : Nat
  exponent : Int
  deriving Repr, DecidableEq, Inhabited

/-- The exact rational `num / den` as a pair of naturals. -/
structure Ratio where
  num : Nat
  den : Nat

/-- `x · 2^e` over `10^k`, as a ratio of naturals. -/
def scaled (x : Nat) (e k : Int) : Ratio :=
  ⟨x * Nat.pow 2 e.toNat * Nat.pow 10 (-k).toNat, Nat.pow 2 (-e).toNat * Nat.pow 10 k.toNat⟩

/-- The grid points `d · 10^k` inside the interval `[lo, hi] · 2^e` (ends kept when `closed`),
as the least and the greatest `d`. -/
def gridRange (lo hi : Nat) (e k : Int) (closed : Bool) : Nat × Nat :=
  let l := scaled lo e k
  let h := scaled hi e k
  let least := if l.num % l.den == 0 && closed then l.num / l.den else l.num / l.den + 1
  let greatest := if h.num % h.den == 0 && !closed then h.num / h.den - 1 else h.num / h.den
  (least, greatest)

/-- Of the grid points `d · 10^k` with `least ≤ d ≤ greatest`, the one nearest `v · 2^e`; an exact
tie goes to the even `d`. -/
def nearestOnGrid (v : Nat) (e k : Int) (least greatest : Nat) : Nat :=
  let r := scaled v e k
  let below := r.num / r.den
  let rest := r.num % r.den
  let above := below + 1
  let preferred :=
    if rest == 0 then below
    else if 2 * rest < r.den then below
    else if 2 * rest > r.den then above
    else if below % 2 == 0 then below else above
  if least ≤ preferred && preferred ≤ greatest then preferred
  else if preferred == below then above else below

/-- A decimal exponent at or above that of the leading digit of `m · 2^e`: `log10 2 < 0.30103`. -/
def startExponent (m : Nat) (e : Int) : Int :=
  Int.fdiv ((e + (Nat.log2 m : Int) + 1) * 30103) 100000 + 1

/-- Scans the grids `10^k`, `10^(k-1)`, … for at most `fuel` steps and stops at the first with a
point in the interval. -/
def scan (m : Nat) (e : Int) (lowerHalved : Bool) : Nat → Int → Option Digits
  | 0, _ => none
  | fuel + 1, k =>
    -- The interval in quarter units of `2^e`, so that every end is a natural number.
    let lo := 4 * m - (if lowerHalved then 1 else 2)
    let hi := 4 * m + 2
    let (least, greatest) := gridRange lo hi (e - 2) k (m % 2 == 0)
    if least ≤ greatest then
      some ⟨nearestOnGrid (4 * m) (e - 2) k least greatest, k⟩
    else scan m e lowerHalved fuel (k - 1)

/-- The shortest decimal that reads back as `m · 2^e`, nearest of those; for the 17 digits of a
64-bit float, 24 grids always suffice from `startExponent`. -/
def shortest (m : Nat) (e : Int) (lowerHalved : Bool) : Digits :=
  (scan m e lowerHalved 40 (startExponent m e)).getD ⟨m, 0⟩

/-- The number of decimal digits of `n`, with `0` counted as one digit. -/
def digitCount (n : Nat) : Nat := (Nat.toDigits 10 n).length

end Skirmish.Decimal
