/-!
# URL-safe base64 without padding

`decodeUrl` reads the URL-safe alphabet (`A`–`Z`, `a`–`z`, `0`–`9`, `-`, `_`) with no `=`.
Every four symbols make three bytes; a final two symbols make one byte and a final three make
two. A text whose length leaves one symbol over is refused, and so is a last symbol whose unused
low bits are not zero. Each byte string then has exactly one text.
-/

namespace Skirmish.Auth

/-- The six-bit value of a symbol of the URL-safe alphabet. -/
def urlValue (b : UInt8) : Option Nat :=
  let n := b.toNat
  if 65 ≤ n ∧ n ≤ 90 then some (n - 65)
  else if 97 ≤ n ∧ n ≤ 122 then some (n - 71)
  else if 48 ≤ n ∧ n ≤ 57 then some (n + 4)
  else if n = 45 then some 62
  else if n = 95 then some 63
  else none

/-- The bytes of groups of symbol values, four at a time; `none` for a bad last group. -/
def decodeGroups : List Nat → Option (List UInt8)
  | a :: b :: c :: d :: rest => do
    let n := ((a * 64 + b) * 64 + c) * 64 + d
    let tail ← decodeGroups rest
    pure ((n / 65536).toUInt8 :: (n / 256 % 256).toUInt8 :: (n % 256).toUInt8 :: tail)
  | [a, b, c] =>
    let n := (a * 64 + b) * 64 + c
    if n % 4 = 0 then some [(n / 1024).toUInt8, (n / 4 % 256).toUInt8] else none
  | [a, b] =>
    let n := a * 64 + b
    if n % 16 = 0 then some [(n / 16).toUInt8] else none
  | [_] => none
  | [] => some []

/-- The bytes a text encodes, or `none` when it is no canonical unpadded URL-safe base64. -/
def decodeUrl (s : String) : Option (List UInt8) := do
  decodeGroups (← s.toUTF8.toList.mapM urlValue)

end Skirmish.Auth
