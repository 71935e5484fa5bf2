import Skirmish.Json.Cursor
import Skirmish.Decimal.Reading

/-!
# Strings, numbers and literals

The readers of the JSON tokens that are not containers.

* Strings: escapes `\" \\ \/ \b \f \n \r \t \uXXXX`; a `\u` escape of a leading surrogate must be
  followed by one of a trailing surrogate, and a trailing surrogate alone is refused. A control
  character inside a string is an error, and the bytes read must be UTF-8.
* Numbers: an integer is kept exactly while it fits 64 bits — unsigned, or signed when negative;
  `-0` and everything with a fraction or an exponent is a float read by
  `Skirmish.Decimal.approximate`. Digits that no longer fit the 64-bit significand are not
  added to it: in the integer part they raise the exponent, after the point they are dropped.
  Exponents are 32-bit and saturate; an exponent too large for 32 bits makes the number zero, or
  out of range when it is positive and the significand is not zero.
* The literals `null`, `true` and `false`.

Every loop consumes a byte per round, so a fuel of one more than the bytes left always suffices.
-/

namespace Skirmish.Json

open Reader

/-- The value of a hex digit. -/
def hexValue (b : UInt8) : Option Nat :=
  if 48 ≤ b ∧ b ≤ 57 then some (b.toNat - 48)
  else if 65 ≤ b ∧ b ≤ 70 then some (b.toNat - 55)
  else if 97 ≤ b ∧ b ≤ 102 then some (b.toNat - 87)
  else none

/-- Whether `b` is an ASCII digit. -/
def isDigit (b : UInt8) : Bool := 48 ≤ b && b ≤ 57

/-- The UTF-8 bytes of the code point `n`. -/
def utf8Bytes (n : Nat) : List UInt8 :=
  if n < 0x80 then [n.toUInt8]
  else if n < 0x800 then [(0xC0 + n / 64).toUInt8, (0x80 + n % 64).toUInt8]
  else if n < 0x10000 then
    [(0xE0 + n / 4096).toUInt8, (0x80 + n / 64 % 64).toUInt8, (0x80 + n % 64).toUInt8]
  else
    [(0xF0 + n / 262144).toUInt8, (0x80 + n / 4096 % 64).toUInt8, (0x80 + n / 64 % 64).toUInt8,
      (0x80 + n % 64).toUInt8]

/-- The cursor past `n` bytes, or at the end. -/
def Cursor.bumpN : Nat → Cursor → Cursor
  | 0, c => c
  | n + 1, c => Cursor.bumpN n c.bump

/-- The cursor at the end of the text. -/
def Cursor.toEnd (c : Cursor) : Cursor := c.bumpN c.rest.length

/-- Reads the four hex digits of a `\u` escape; with fewer than four bytes left the text ends
inside the string. -/
def hexEscape : Reader Nat := fun c =>
  match c.rest with
  | a :: b :: d :: e :: _ =>
    let c' := c.bumpN 4
    match hexValue a, hexValue b, hexValue d, hexValue e with
    | some w, some x, some y, some z => .ok (((w * 16 + x) * 16 + y) * 16 + z) c'
    | _, _, _, _ => .error ⟨SyntaxError.invalidEscape.message, some c'.position, true, []⟩ c'
  | _ =>
    let c' := c.toEnd
    .error ⟨SyntaxError.eofWhileParsingString.message, some c'.position, true, []⟩ c'

/-- The next byte inside a string, which must be there. -/
def nextInString : Reader UInt8 := do
  match ← next with
  | some b => pure b
  | none => failAt .eofWhileParsingString

/-- The next byte inside a string, not consumed, which must be there. -/
def peekInString : Reader UInt8 := do
  match ← peek with
  | some b => pure b
  | none => failAt .eofWhileParsingString

/-- Reads a `\u` escape (the `\u` already read) and gives the bytes of its character. -/
def unicodeEscape : Reader (List UInt8) := do
  let n ← hexEscape
  if 0xDC00 ≤ n ∧ n ≤ 0xDFFF then failAt .loneLeadingSurrogateInHexEscape
  else if n < 0xD800 ∨ 0xDBFF < n then pure (utf8Bytes n)
  else
    if (← peekInString) ≠ 92 then
      bump
      failAt .unexpectedEndOfHexEscape
    else
      bump
      if (← peekInString) ≠ 117 then
        bump
        failAt .unexpectedEndOfHexEscape
      else
        bump
        let n₂ ← hexEscape
        if n₂ < 0xDC00 ∨ 0xDFFF < n₂ then failAt .loneLeadingSurrogateInHexEscape
        else pure (utf8Bytes ((n - 0xD800) * 1024 + (n₂ - 0xDC00) + 0x10000))

/-- Reads an escape (the backslash already read) and gives the bytes it stands for. -/
def escape : Reader (List UInt8) := do
  match ← nextInString with
  | 34 => pure [34]
  | 92 => pure [92]
  | 47 => pure [47]
  | 98 => pure [8]
  | 102 => pure [12]
  | 110 => pure [10]
  | 114 => pure [13]
  | 116 => pure [9]
  | 117 => unicodeEscape
  | _ => failAt .invalidEscape

/-- Checks an escape without keeping it; a `\u` escape needs four hex digits only. -/
def ignoreEscape : Reader Unit := do
  match ← nextInString with
  | 34 | 92 | 47 | 98 | 102 | 110 | 114 | 116 => pure ()
  | 117 => discard hexEscape
  | _ => failAt .invalidEscape

/-- Whether a string stops being copied at `b`: a quote, a backslash or a control character. -/
def stopsString (b : UInt8) : Bool := b = 34 || b = 92 || b < 32

/-- The bytes before the first one that stops a string. -/
def plainPrefix : List UInt8 → List UInt8
  | [] => []
  | b :: rest => if stopsString b then [] else b :: plainPrefix rest

/-- Consumes the bytes before the first one that stops a string and gives them; none of them is
a line feed. -/
def plainRun : Reader (List UInt8) := fun c =>
  let run := plainPrefix c.rest
  .ok run ⟨c.rest.drop run.length, c.line, c.column + run.length⟩

/-- The string whose UTF-8 bytes are `bytes`, if they are UTF-8. -/
def decodeUtf8 (bytes : List UInt8) : Option String :=
  String.fromUTF8? (ByteArray.mk bytes.toArray)

/-- Reads the rest of a string (the opening quote already read), with `acc` the bytes so far. -/
def stringBody (acc : List UInt8) : Nat → Reader String
  | 0 => failAt .eofWhileParsingString
  | fuel + 1 => do
    let run ← plainRun
    match ← peek with
    | none => failAt .eofWhileParsingString
    | some 34 =>
      bump
      match decodeUtf8 (acc ++ run) with
      | some s => pure s
      | none => failAt .invalidUnicodeCodePoint
    | some 92 =>
      bump
      let bytes ← escape
      stringBody (acc ++ run ++ bytes) fuel
    | some _ =>
      bump
      failAt .controlCharacterWhileParsingString

/-- The number of bytes left. -/
def remaining : Reader Nat := fun c => .ok c.rest.length c

/-- Reads a string whose opening quote has been read. -/
def readString : Reader String := do
  stringBody [] ((← remaining) + 1)

/-- Skips the rest of a string (the opening quote already read) without decoding it. -/
def ignoreStringBody : Nat → Reader Unit
  | 0 => failAt .eofWhileParsingString
  | fuel + 1 => do
    discard plainRun
    match ← peek with
    | none => failAt .eofWhileParsingString
    | some 34 => bump
    | some 92 =>
      bump
      ignoreEscape
      ignoreStringBody fuel
    | some _ => failAt .controlCharacterWhileParsingString

/-- Skips a string whose opening quote has been read. -/
def ignoreString : Reader Unit := do
  ignoreStringBody ((← remaining) + 1)

/-- Reads the rest of a literal, byte by byte. -/
def literal : List UInt8 → Reader Unit
  | [] => pure ()
  | b :: rest => do
    match ← next with
    | none => failAt .eofWhileParsingValue
    | some x => if x = b then literal rest else failAt .expectedSomeIdent

/-- The rest of `null` after its `n`. -/
def ull : List UInt8 := [117, 108, 108]

/-- The rest of `true` after its `t`. -/
def rue : List UInt8 := [114, 117, 101]

/-- The rest of `false` after its `f`. -/
def alse : List UInt8 := [97, 108, 115, 101]

/-- A number as read: an unsigned or a negative 64-bit integer, or a float. -/
inductive ParsedNumber where
  | unsigned (n : Nat)
  | negative (n : Int)
  | float (x : Float)

/-- The largest 64-bit unsigned integer. -/
def u64Max : Nat := Nat.pow 2 64 - 1

/-- The largest 32-bit signed integer. -/
def i32Max : Int := Int.pow 2 31 - 1

/-- Whether one more digit would take a 64-bit significand past its range. -/
def overflows (significand digit : Nat) : Bool := u64Max < significand * 10 + digit

/-- Clamps an exponent to the 32-bit range. -/
def saturate (x : Int) : Int := max (-Int.pow 2 31) (min i32Max x)

/-- The float of `±significand · 10^exponent`, or out of range. -/
def fromParts (positive : Bool) (significand : Nat) (exponent : Int) : Reader Float :=
  match Decimal.approximate (!positive) significand exponent with
  | some x => pure x
  | none => failAt .numberOutOfRange

/-- Skips digits. -/
def skipDigits : Nat → Reader Unit
  | 0 => pure ()
  | fuel + 1 => do
    if isDigit (← peekOrNull) then
      bump
      skipDigits fuel
    else pure ()

/-- Reads the digits of an exponent, `exp` so far; an exponent past 32 bits ends the number. -/
def exponentDigits (positive zeroSignificand positiveExp : Bool) (exp : Nat) :
    Nat → Reader (Option Nat)
  | 0 => pure (some exp)
  | fuel + 1 => do
    let b ← peekOrNull
    if isDigit b then
      bump
      let digit := b.toNat - 48
      if i32Max < ((exp * 10 + digit : Nat) : Int) then
        if !zeroSignificand && positiveExp then failAt .numberOutOfRange
        else
          skipDigits ((← remaining) + 1)
          pure none
      else exponentDigits positive zeroSignificand positiveExp (exp * 10 + digit) fuel
    else pure (some exp)

/-- Reads an exponent (at its `e`) of a number with the given significand and exponent so far. -/
def exponentPart (positive : Bool) (significand : Nat) (start : Int) : Reader Float := do
  bump
  let positiveExp ← do
    match ← peekOrNull with
    | 43 => bump; pure true
    | 45 => bump; pure false
    | _ => pure true
  match ← next with
  | none => failAt .eofWhileParsingValue
  | some b =>
    if isDigit b then
      match ← exponentDigits positive (significand == 0) positiveExp (b.toNat - 48)
          ((← remaining) + 1) with
      | none => pure (if positive then 0.0 else -0.0)
      | some exp =>
        let final := if positiveExp then saturate (start + exp) else saturate (start - exp)
        fromParts positive significand final
    else failAt .invalidNumber

/-- After digits that no longer fit: skips the rest of the fraction. -/
def fractionOverflow (positive : Bool) (significand : Nat) (exponent : Int) : Reader Float := do
  skipDigits ((← remaining) + 1)
  match ← peekOrNull with
  | 101 | 69 => exponentPart positive significand exponent
  | _ => fromParts positive significand exponent

/-- Reads fraction digits; `after` counts the digits taken (as a negative exponent). -/
def fractionDigits (positive : Bool) (significand : Nat) (before after : Int) :
    Nat → Reader (Sum (Nat × Int) Float)
  | 0 => pure (.inl (significand, after))
  | fuel + 1 => do
    let b ← peekOrNull
    if isDigit b then
      let digit := b.toNat - 48
      if overflows significand digit then
        .inr <$> fractionOverflow positive significand (before + after)
      else
        bump
        fractionDigits positive (significand * 10 + digit) before (after - 1) fuel
    else pure (.inl (significand, after))

/-- Reads a fraction (at its `.`); at least one digit must follow the point. -/
def fractionPart (positive : Bool) (significand : Nat) (before : Int) : Reader Float := do
  bump
  match ← fractionDigits positive significand before 0 ((← remaining) + 1) with
  | .inr x => pure x
  | .inl (significand, after) =>
    if after = 0 then
      match ← peek with
      | some _ => failPeek .invalidNumber
      | none => failPeek .eofWhileParsingValue
    else
      let final := before + after
      match ← peekOrNull with
      | 101 | 69 => exponentPart positive significand final
      | _ => fromParts positive significand final

/-- After integer digits that no longer fit: counts the rest as powers of ten. -/
def longInteger (positive : Bool) (significand : Nat) (exponent : Int) : Nat → Reader Float
  | 0 => fromParts positive significand exponent
  | fuel + 1 => do
    match ← peekOrNull with
    | 46 => fractionPart positive significand exponent
    | 101 | 69 => exponentPart positive significand exponent
    | b =>
      if isDigit b then
        bump
        longInteger positive significand (exponent + 1) fuel
      else fromParts positive significand exponent

/-- What follows the integer digits: a fraction, an exponent, or the end of the number. -/
def numberTail (positive : Bool) (significand : Nat) : Reader ParsedNumber := do
  match ← peekOrNull with
  | 46 => .float <$> fractionPart positive significand 0
  | 101 | 69 => .float <$> exponentPart positive significand 0
  | _ =>
    if positive then pure (.unsigned significand)
    else if significand = 0 then pure (.float (-0.0))
    else if significand ≤ Nat.pow 2 63 then pure (.negative (-(significand : Int)))
    else pure (.float (-(significand.toUInt64.toFloat)))

/-- Reads integer digits after the first, `significand` so far. -/
def integerDigits (positive : Bool) (significand : Nat) : Nat → Reader ParsedNumber
  | 0 => numberTail positive significand
  | fuel + 1 => do
    let b ← peekOrNull
    if isDigit b then
      let digit := b.toNat - 48
      if overflows significand digit then
        .float <$> longInteger positive significand 0 ((← remaining) + 1)
      else
        bump
        integerDigits positive (significand * 10 + digit) fuel
    else numberTail positive significand

/-- Reads a number after its sign; a leading `0` stands alone. -/
def readNumber (positive : Bool) : Reader ParsedNumber := do
  match ← next with
  | none => failAt .eofWhileParsingValue
  | some 48 =>
    if isDigit (← peekOrNull) then failPeek .invalidNumber
    else numberTail positive 0
  | some b =>
    if isDigit b then integerDigits positive (b.toNat - 48) ((← remaining) + 1)
    else failAt .invalidNumber

/-- Checks the exponent of a skipped number (at its `e`). -/
def ignoreExponent : Reader Unit := do
  bump
  match ← peekOrNull with
  | 43 | 45 => bump
  | _ => pure ()
  match ← next with
  | some b =>
    if isDigit b then skipDigits ((← remaining) + 1) else failAt .invalidNumber
  | none => failAt .invalidNumber

/-- Checks the fraction of a skipped number (at its `.`). -/
def ignoreFraction : Reader Unit := do
  bump
  if isDigit (← peekOrNull) then
    skipDigits ((← remaining) + 1)
    match ← peekOrNull with
    | 101 | 69 => ignoreExponent
    | _ => pure ()
  else failPeek .invalidNumber

/-- Checks the syntax of a skipped number after its sign, computing no value. -/
def ignoreNumber : Reader Unit := do
  match ← next with
  | some 48 =>
    if isDigit (← peekOrNull) then failPeek .invalidNumber
    else pure ()
  | some b =>
    if isDigit b then skipDigits ((← remaining) + 1) else failAt .invalidNumber
  | none => failAt .invalidNumber
  match ← peekOrNull with
  | 46 => ignoreFraction
  | 101 | 69 => ignoreExponent
  | _ => pure ()

end Skirmish.Json
