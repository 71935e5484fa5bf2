/-!
# Trimming and reading integers

Settings and token subjects are read the strict way: surrounding whitespace in the Unicode sense
is trimmed, then the whole rest must be a decimal numeral. It may have a `+` sign, and a `-` sign
for signed integers. It needs at least one digit, and its value must fit the integer's range.
-/

namespace Skirmish.Text

/-- Whether a character is whitespace in the Unicode sense. -/
def isWhite (c : Char) : Bool :=
  let n := c.toNat
  (9 ≤ n && n ≤ 13) || n = 32 || n = 0x85 || n = 0xA0 || n = 0x1680 ||
    (0x2000 ≤ n && n ≤ 0x200A) || n = 0x2028 || n = 0x2029 || n = 0x202F || n = 0x205F ||
    n = 0x3000

/-- A text without whitespace at either end. -/
def trimWhite (s : String) : String :=
  String.ofList ((s.toList.dropWhile isWhite).reverse.dropWhile isWhite).reverse

/-- The value of a nonempty run of decimal digits. -/
def digitsValue (digits : List Char) : Option Nat :=
  if digits.isEmpty || !digits.all Char.isDigit then none
  else some (digits.foldl (fun n c => 10 * n + (c.toNat - 48)) 0)

/-- The value of an unsigned decimal numeral at most `bound`, with an optional `+`. -/
def parseUnsigned (s : String) (bound : Nat) : Option Nat := do
  let n ← digitsValue (match s.toList with
    | '+' :: rest => rest
    | cs => cs)
  if n ≤ bound then some n else none

/-- The value of a decimal 64-bit signed integer with an optional sign. -/
def parseInt64 (s : String) : Option Int :=
  match s.toList with
  | '-' :: rest => do
    let n ← digitsValue rest
    if n ≤ Nat.pow 2 63 then some (-(n : Int)) else none
  | cs => do
    let n ← digitsValue (match cs with
      | '+' :: rest => rest
      | cs => cs)
    if n < Nat.pow 2 63 then some (n : Int) else none

end Skirmish.Text
