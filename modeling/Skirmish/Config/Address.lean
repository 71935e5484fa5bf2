/-!
# Socket addresses

A listening address is an IPv4 address and a port, `a.b.c.d:port`, or an IPv6 address in
brackets with an optional numeric scope and a port, `[addr%scope]:port`. `SocketAddr.parse`
reads the whole text as one of these, and `SocketAddr.text` writes one back in canonical form.

Reading is by functions from the characters left to a value and the characters after it, so a
failed alternative leaves nothing consumed. A number is a maximal run of digits. It is refused
when it is empty, longer than a digit limit, out of range, or, where leading zeros are not
allowed, a longer numeral starting with `0`. IPv4 parts allow up to three decimal digits, no
leading zeros, up to `255`. IPv6 groups allow up to four hex digits. Ports and scopes take any
number of decimal digits up to their range.

An IPv6 address is at most eight groups, with at most one `::` standing for a run of zero groups.
Its last two groups may be written as an IPv4 address, which then ends the part it is in; the part
before a `::` may not end so. Written back, an address takes the longest run of two or more zero
groups as `::` (the first of equal runs), lower-case hex without leading zeros. Three shapes are
written specially: `::`, `::1` and IPv4-mapped addresses `::ffff:a.b.c.d`.

Each loop runs on fuel: the characters left, or the groups left to read.
-/

namespace Skirmish

/-- A listening address. -/
inductive SocketAddr where
  /-- Four octets and a port. -/
  | v4 (octets : List Nat) (port : Nat)
  /-- Eight 16-bit groups, a scope and a port. -/
  | v6 (groups : List Nat) (scope : Nat) (port : Nat)
  deriving Repr, DecidableEq

namespace SocketAddr

/-- A reading of a prefix: the value and the characters after it. -/
abbrev Scan (α : Type) := List Char → Option (α × List Char)

/-- The value of a digit in a radix. -/
def digitValue (radix : Nat) (c : Char) : Option Nat :=
  let n := c.toNat
  let v := if 48 ≤ n ∧ n ≤ 57 then n - 48
    else if 97 ≤ n ∧ n ≤ 122 then n - 87
    else if 65 ≤ n ∧ n ≤ 90 then n - 55
    else radix
  if v < radix then some v else none

/-- The longest run of digits at the front, and the rest. -/
def digitRun (radix : Nat) : List Char → List Nat × List Char
  | [] => ([], [])
  | c :: rest =>
    match digitValue radix c with
    | some v =>
      let (ds, after) := digitRun radix rest
      (v :: ds, after)
    | none => ([], c :: rest)

/-- A number: a run of digits of at most `maxDigits`, with no leading zero unless
`zeroPrefix`, whose value is at most `bound`. -/
def number (radix : Nat) (maxDigits : Option Nat) (zeroPrefix : Bool) (bound : Nat) :
    Scan Nat := fun cs =>
  let (ds, rest) := digitRun radix cs
  let value := ds.foldl (fun n d => radix * n + d) 0
  if ds.isEmpty then none
  else if maxDigits.any (· < ds.length) then none
  else if !zeroPrefix && 1 < ds.length && ds.head? = some 0 then none
  else if bound < value then none
  else some (value, rest)

/-- One given character. -/
def expect (c : Char) : Scan Unit
  | d :: rest => if c = d then some ((), rest) else none
  | [] => none

/-- An IPv4 address: four decimal octets separated by `.`. -/
def ipv4 : Scan (List Nat) := fun cs => do
  let octet := number 10 (some 3) false 255
  let (a, cs) ← octet cs
  let ((), cs) ← expect '.' cs
  let (b, cs) ← octet cs
  let ((), cs) ← expect '.' cs
  let (c, cs) ← octet cs
  let ((), cs) ← expect '.' cs
  let (d, cs) ← octet cs
  pure ([a, b, c, d], cs)

/-- `inner`, preceded by `sep` unless it is the first of its kind. -/
def separated {α : Type} (sep : Char) (first : Bool) (inner : Scan α) : Scan α := fun cs =>
  if first then inner cs else do
    let ((), cs) ← expect sep cs
    inner cs

/-- Reads up to `fuel` more colon-separated groups after `acc`, of a part of at most `limit`
groups. Gives the groups read, whether an IPv4 address ended them, and the rest. -/
def groups (limit : Nat) : Nat → List Nat → List Char → List Nat × Bool × List Char
  | 0, acc, cs => (acc, false, cs)
  | fuel + 1, acc, cs =>
    let tail := if acc.length + 1 < limit then separated ':' acc.isEmpty ipv4 cs else none
    match tail with
    | some ([a, b, c, d], rest) => (acc ++ [a * 256 + b, c * 256 + d], true, rest)
    | _ =>
      match separated ':' acc.isEmpty (number 16 (some 4) true 0xFFFF) cs with
      | some (g, rest) => groups limit fuel (acc ++ [g]) rest
      | none => (acc, false, cs)

/-- An IPv6 address: eight groups, or the groups before and after one `::`. -/
def ipv6 : Scan (List Nat) := fun cs =>
  let (head, headV4, cs) := groups 8 8 [] cs
  if head.length = 8 then some (head, cs)
  else if headV4 then none
  else do
    let ((), cs) ← expect ':' cs
    let ((), cs) ← expect ':' cs
    let limit := 8 - (head.length + 1)
    let (tail, _, cs) := groups limit limit [] cs
    pure (head ++ List.replicate (8 - head.length - tail.length) 0 ++ tail, cs)

/-- A port: `:` and a decimal number up to `65535`. -/
def port : Scan Nat := fun cs => do
  let ((), cs) ← expect ':' cs
  number 10 none true 65535 cs

/-- An IPv4 address and a port. -/
def scanV4 : Scan SocketAddr := fun cs => do
  let (ip, cs) ← ipv4 cs
  let (p, cs) ← port cs
  pure (.v4 ip p, cs)

/-- A bracketed IPv6 address with an optional scope, and a port. -/
def scanV6 : Scan SocketAddr := fun cs => do
  let ((), cs) ← expect '[' cs
  let (ip, cs) ← ipv6 cs
  let (scope, cs) := ((do
      let ((), cs) ← expect '%' cs
      number 10 none true (Nat.pow 2 32 - 1) cs).getD (0, cs))
  let ((), cs) ← expect ']' cs
  let (p, cs) ← port cs
  pure (.v6 ip scope p, cs)

/-- Reads a whole text as an address. -/
def parse (s : String) : Option SocketAddr :=
  match scanV4 s.toList with
  | some (a, []) => some a
  | some _ => none
  | none =>
    match scanV6 s.toList with
    | some (a, []) => some a
    | _ => none

/-- The lower-case hex digits of a group, without leading zeros. -/
def hexGroup (g : Nat) : String := String.ofList (Nat.toDigits 16 g)

/-- Groups joined by `:`. -/
def joinGroups (gs : List Nat) : String := ":".intercalate (gs.map hexGroup)

/-- The longest run of zero groups, the first of equal ones, as its start and length. -/
def longestZeros (gs : List Nat) : Nat × Nat :=
  let (best, _) := gs.zipIdx.foldl (fun (best, current) (g, i) =>
    if g = 0 then
      let current := if current.2 = 0 then (i, 1) else (current.1, current.2 + 1)
      (if best.2 < current.2 then current else best, current)
    else (best, (0, 0))) ((0, 0), (0, 0))
  best

/-- The dotted text of four octets. -/
def dotted (octets : List Nat) : String := ".".intercalate (octets.map toString)

/-- The canonical text of an IPv6 address. -/
def ipv6Text (gs : List Nat) : String :=
  if gs.all (· = 0) then "::"
  else if gs = [0, 0, 0, 0, 0, 0, 0, 1] then "::1"
  else match gs with
    | [0, 0, 0, 0, 0, 0xFFFF, x, y] => "::ffff:" ++ dotted [x / 256, x % 256, y / 256, y % 256]
    | _ =>
      let (start, len) := longestZeros gs
      if 1 < len then
        joinGroups (gs.take start) ++ "::" ++ joinGroups (gs.drop (start + len))
      else joinGroups gs

/-- The canonical text of an address. -/
def text : SocketAddr → String
  | .v4 octets p => dotted octets ++ ":" ++ toString p
  | .v6 gs scope p =>
    "[" ++ ipv6Text gs ++ (if scope = 0 then "" else "%" ++ toString scope) ++ "]:" ++ toString p

/-- The port. -/
def portNumber : SocketAddr → Nat
  | .v4 _ p => p
  | .v6 _ _ p => p

end SocketAddr

end Skirmish
