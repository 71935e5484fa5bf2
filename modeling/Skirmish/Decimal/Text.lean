import Skirmish.Decimal.Shortest
import Skirmish.Binary.Format

/-!
# Writing a shortest decimal as text

A `Notation` decides where a decimal is written positionally and where with an exponent: with `n`
digits and exponent `k`, the point stands after `n + k` digits. Positions from `1` up to
`positionalUpTo` are written with the point inside or after the digits (`12.5`, `300.0`), positions
from `fractionalAbove + 1` up to `0` as `0.00125`, and all others as `1.25e-7`. Whole numbers keep a
`.0`, so that the text reads as a float.

`Float32.shortestText` and `Float.shortestText` write the shortest decimal that reads back as the
value; `null` stands for a value that is not finite.
-/

namespace Skirmish.Decimal

/-- Where a decimal is written positionally, and how its exponent is signed. -/
structure Notation where
  /-- The last position of the point written positionally. -/
  positionalUpTo : Int
  /-- Positions above this and at most `0` are written as `0.000ddd`. -/
  fractionalAbove : Int
  /-- Whether a nonnegative exponent carries a `+`. -/
  plusSign : Bool

/-- Text of 32-bit floats in a JSON document. -/
def Notation.single : Notation := ⟨13, -6, false⟩

/-- Text of 64-bit floats in a JSON document. -/
def Notation.double : Notation := ⟨16, -5, false⟩

/-- Text of a 64-bit float quoted in a diagnostic. -/
def Notation.quoted : Notation := ⟨16, -5, true⟩

/-- `n` copies of `0`. -/
def zeros (n : Nat) : String := String.ofList (List.replicate n '0')

/-- The exponent part `e…` of a decimal whose leading digit has weight `10^x`. -/
def exponentText (n : Notation) (x : Int) : String :=
  if x < 0 then "e-" ++ toString x.natAbs
  else (if n.plusSign then "e+" else "e") ++ toString x.natAbs

/-- The decimal `d · 10^k` (with `d > 0`) in notation `n`. -/
def Digits.text (n : Notation) (d : Digits) : String :=
  let digits := toString d.digits
  let len : Int := digits.length
  let point := len + d.exponent
  if 0 ≤ d.exponent ∧ point ≤ n.positionalUpTo then
    digits ++ zeros d.exponent.toNat ++ ".0"
  else if 0 < point ∧ point ≤ n.positionalUpTo then
    String.ofList (digits.toList.take point.toNat) ++ "." ++
      String.ofList (digits.toList.drop point.toNat)
  else if n.fractionalAbove < point ∧ point ≤ 0 then
    "0." ++ zeros point.natAbs ++ digits
  else if len = 1 then
    digits ++ exponentText n (point - 1)
  else
    String.ofList (digits.toList.take 1) ++ "." ++ String.ofList (digits.toList.drop 1) ++
      exponentText n (point - 1)

/-- Text of a float decoded as `v`, in notation `n`; `none` when `v` is not finite. -/
def valueText? (n : Notation) : Skirmish.Binary.BinaryValue → Option String
  | .nan | .infinite _ => none
  | .zero negative => some (if negative then "-0.0" else "0.0")
  | .finite negative m e halved =>
    some ((if negative then "-" else "") ++ (shortest m e halved).text n)

end Skirmish.Decimal

namespace Float32

/-- The shortest decimal text that reads back as `x`, or `none` for a value that is not finite. -/
def shortestText? (x : Float32) (n : Skirmish.Decimal.Notation) : Option String :=
  Skirmish.Decimal.valueText? n x.binaryValue

end Float32

namespace Float

/-- The shortest decimal text that reads back as `x`, or `none` for a value that is not finite. -/
def shortestText? (x : Float) (n : Skirmish.Decimal.Notation) : Option String :=
  Skirmish.Decimal.valueText? n x.binaryValue

end Float
