import Skirmish.Random.ChaCha

/-!
# UUIDs

A `Uuid` is a 128-bit number, written as 32 lower-case hex digits in groups of 8, 4, 4, 4 and
12 separated by hyphens. `Uuid.parse` reads the four usual spellings — 32 hex digits alone, the
hyphenated form, the hyphenated form in braces, and the hyphenated form after `urn:uuid:` —
with hex digits of either case. A text that is none of these is diagnosed in order: the first
character that is neither a hex digit nor a hyphen, then a wrong length for the form without
hyphens, then a wrong number of groups, then the first group of the wrong length.

Fresh ids are random version-4 UUIDs: 122 bits from a `ChaCha8` stream, with the version and
variant bits set.
-/

namespace Skirmish

/-- A 128-bit identifier. -/
structure Uuid where
  value : Nat
  deriving Repr, DecidableEq, Inhabited

namespace Uuid

/-- The all-zero UUID. -/
def nil : Uuid := ⟨0⟩

/-- The UUID of a 128-bit number. -/
def ofNat (n : Nat) : Uuid := ⟨n % Nat.pow 2 128⟩

/-- The lower-case hex digit of `n < 16`. -/
def hexChar (n : Nat) : Char :=
  if n < 10 then Char.ofNat (48 + n) else Char.ofNat (87 + n)

/-- The `count` hex digits of `n`, most significant first. -/
def hexDigits (n : Nat) : Nat → List Char
  | 0 => []
  | count + 1 => hexDigits (n / 16) count ++ [hexChar (n % 16)]

/-- The hyphenated lower-case text. -/
def text (u : Uuid) : String :=
  let d := hexDigits u.value 32
  String.ofList (d.take 8 ++ ['-'] ++ (d.drop 8).take 4 ++ ['-'] ++ (d.drop 12).take 4 ++ ['-'] ++
    (d.drop 16).take 4 ++ ['-'] ++ d.drop 20)

/-- The value of a hex digit. -/
def hexValue (c : Char) : Option Nat :=
  if '0' ≤ c ∧ c ≤ '9' then some (c.toNat - 48)
  else if 'a' ≤ c ∧ c ≤ 'f' then some (c.toNat - 87)
  else if 'A' ≤ c ∧ c ≤ 'F' then some (c.toNat - 55)
  else none

/-- The number of hex digits `cs`, if they all are hex digits. -/
def hexNumber (cs : List Char) : Option Nat :=
  cs.foldlM (fun acc c => (hexValue c).map (acc * 16 + ·)) 0

/-- Why a text is not a UUID. -/
inductive ParseError where
  | character (c : Char) (index : Nat)
  | simpleLength (len : Nat)
  | groupCount (count : Nat)
  | groupLength (group len : Nat)
  deriving Repr, DecidableEq

/-- The text of a parse failure. -/
def ParseError.message : ParseError → String
  | .character c i => "invalid character: found `" ++ c.toString ++ "` at " ++ toString i
  | .simpleLength len =>
    "invalid length: expected length 32 for simple format, found " ++ toString len
  | .groupCount count => "invalid group count: expected 5, found " ++ toString count
  | .groupLength group len =>
    "invalid group length in group " ++ toString group ++ ": expected " ++
      toString ([8, 4, 4, 4, 12].getD group 0) ++ ", found " ++ toString len

/-- The 32 digits of the hyphenated form, if `cs` is one: hyphens at 8, 13, 18 and 23. -/
def hyphenatedDigits (cs : List Char) : Option (List Char) :=
  if cs.length = 36 ∧ cs[8]? = some '-' ∧ cs[13]? = some '-' ∧ cs[18]? = some '-' ∧
      cs[23]? = some '-' then
    some ((cs.take 8) ++ (cs.drop 9).take 4 ++ (cs.drop 14).take 4 ++ (cs.drop 19).take 4 ++
      cs.drop 24)
  else none

/-- The inner text of a braced or `urn:uuid:` form, with the offset of that text. -/
def unwrap (cs : List Char) : List Char × Nat × Bool :=
  if cs.length ≥ 2 ∧ cs.head? = some '{' ∧ cs.getLast? = some '}' then
    ((cs.drop 1).dropLast, 1, false)
  else if "urn:uuid:".toList.isPrefixOf cs then (cs.drop 9, 9, false)
  else (cs, 0, true)

/-- The first character that is neither a hex digit nor a hyphen, with its byte index. -/
def badCharacter : List Char → Nat → Option (Char × Nat)
  | [], _ => none
  | c :: rest, i =>
    if c = '-' ∨ (hexValue c).isSome then badCharacter rest (i + c.utf8Size) else some (c, i)

/-- The byte indices of the hyphens. -/
def hyphenIndices : List Char → Nat → List Nat
  | [], _ => []
  | c :: rest, i =>
    (if c = '-' then [i] else []) ++ hyphenIndices rest (i + c.utf8Size)

/-- Why a text that did not parse is not a UUID. -/
def diagnose (s : String) : ParseError :=
  let (inner, offset, simple) := unwrap s.toList
  match badCharacter inner 0 with
  | some (c, i) => .character c (i + offset)
  | none =>
    let hyphens := hyphenIndices inner 0
    if hyphens.isEmpty ∧ simple then .simpleLength s.utf8ByteSize
    else if hyphens.length ≠ 4 then .groupCount (hyphens.length + 1)
    else
      let starts := [0, 9, 14, 19, 24]
      let wrong := (List.range 4).find? fun g => hyphens[g]? ≠ some (starts.getD (g + 1) 0 - 1)
      match wrong with
      | some g => .groupLength g (hyphens.getD g 0 - starts.getD g 0)
      | none => .groupLength 4 (s.utf8ByteSize - 24)

/-- Reads a UUID in one of its four spellings. -/
def parse (s : String) : Except ParseError Uuid :=
  let cs := s.toList
  let digits :=
    if s.utf8ByteSize = 32 then some cs
    else if s.utf8ByteSize = 36 then hyphenatedDigits cs
    else if s.utf8ByteSize = 38 ∧ cs.head? = some '{' ∧ cs.getLast? = some '}' then
      hyphenatedDigits ((cs.drop 1).dropLast)
    else if s.utf8ByteSize = 45 ∧ "urn:uuid:".toList.isPrefixOf cs then
      hyphenatedDigits (cs.drop 9)
    else none
  match digits.bind hexNumber with
  | some n => if digits.map List.length = some 32 then pure ⟨n⟩ else throw (diagnose s)
  | none => throw (diagnose s)

/-- The version-4 UUID made of four random words: the version nibble set to `4` and the
variant bits to `10`. -/
def ofWords (a b c d : UInt32) : Uuid :=
  let n := ((a.toNat * Nat.pow 2 32 + b.toNat) * Nat.pow 2 32 + c.toNat) * Nat.pow 2 32 + d.toNat
  let clearVersion := n - (n / Nat.pow 2 76 % 16) * Nat.pow 2 76
  let withVersion := clearVersion + 4 * Nat.pow 2 76
  let clearVariant := withVersion - (withVersion / Nat.pow 2 62 % 4) * Nat.pow 2 62
  ⟨clearVariant + 2 * Nat.pow 2 62⟩

/-- A fresh random UUID and the generator after it. -/
def fresh (g : Random.ChaCha8) : Uuid × Random.ChaCha8 :=
  let (a, g) := g.nextU32
  let (b, g) := g.nextU32
  let (c, g) := g.nextU32
  let (d, g) := g.nextU32
  (ofWords a b c d, g)

end Uuid

end Skirmish
