/-!
# SHA-256 and HMAC-SHA256

`sha256` hashes a list of bytes by the standard construction. The message is padded with a `1`
bit, zeros and its bit length, as 64 big-endian bits, to whole 64-byte blocks. Each block is
compressed into the eight-word state by 64 rounds over its expanded message schedule, and the
final state, written big-endian, is the digest.

`hmacSha256` keys the hash. A key longer than a block is hashed first. The key, padded with
zeros to a block, is mixed with the inner pad `0x36` before the message and with the outer pad
`0x5c` before the inner digest.
-/

namespace Skirmish.Auth

/-- The round constants: the first 32 bits of the fractional parts of the cube roots of the
first 64 primes. -/
def roundConstants : List UInt32 :=
  [0x428a2f98, 0x71374491, 0xb5c0fbcf, 0xe9b5dba5, 0x3956c25b, 0x59f111f1, 0x923f82a4, 0xab1c5ed5,
   0xd807aa98, 0x12835b01, 0x243185be, 0x550c7dc3, 0x72be5d74, 0x80deb1fe, 0x9bdc06a7, 0xc19bf174,
   0xe49b69c1, 0xefbe4786, 0x0fc19dc6, 0x240ca1cc, 0x2de92c6f, 0x4a7484aa, 0x5cb0a9dc, 0x76f988da,
   0x983e5152, 0xa831c66d, 0xb00327c8, 0xbf597fc7, 0xc6e00bf3, 0xd5a79147, 0x06ca6351, 0x14292967,
   0x27b70a85, 0x2e1b2138, 0x4d2c6dfc, 0x53380d13, 0x650a7354, 0x766a0abb, 0x81c2c92e, 0x92722c85,
   0xa2bfe8a1, 0xa81a664b, 0xc24b8b70, 0xc76c51a3, 0xd192e819, 0xd6990624, 0xf40e3585, 0x106aa070,
   0x19a4c116, 0x1e376c08, 0x2748774c, 0x34b0bcb5, 0x391c0cb3, 0x4ed8aa4a, 0x5b9cca4f, 0x682e6ff3,
   0x748f82ee, 0x78a5636f, 0x84c87814, 0x8cc70208, 0x90befffa, 0xa4506ceb, 0xbef9a3f7, 0xc67178f2]

/-- The eight working words of the compression. -/
structure Working where
  a : UInt32
  b : UInt32
  c : UInt32
  d : UInt32
  e : UInt32
  f : UInt32
  g : UInt32
  h : UInt32

/-- The initial state: the first 32 bits of the fractional parts of the square roots of the
first eight primes. -/
def initial : Working :=
  ⟨0x6a09e667, 0xbb67ae85, 0x3c6ef372, 0xa54ff53a, 0x510e527f, 0x9b05688c, 0x1f83d9ab, 0x5be0cd19⟩

/-- Rotation of a word right by `n` bits. -/
def rotr (x : UInt32) (n : UInt32) : UInt32 := (x >>> n) ||| (x <<< (32 - n))

/-- The big-endian word of four bytes. -/
def wordOf (b : List UInt8) : UInt32 :=
  b.foldl (fun w x => (w <<< 8) ||| x.toUInt32) 0

/-- The sixteen words of a block. -/
def blockWords (block : List UInt8) : List UInt32 :=
  (List.range 16).map fun i => wordOf ((block.drop (4 * i)).take 4)

/-- The message schedule: the block's sixteen words extended to sixty-four. -/
def schedule (w : List UInt32) : List UInt32 :=
  (List.range 48).foldl (fun w i =>
    let t := i + 16
    let x := w.getD (t - 15) 0
    let y := w.getD (t - 2) 0
    let s0 := rotr x 7 ^^^ rotr x 18 ^^^ (x >>> 3)
    let s1 := rotr y 17 ^^^ rotr y 19 ^^^ (y >>> 10)
    w ++ [w.getD (t - 16) 0 + s0 + w.getD (t - 7) 0 + s1]) w

/-- One round with round constant `k` and schedule word `w`. -/
def round (s : Working) (k w : UInt32) : Working :=
  let s1 := rotr s.e 6 ^^^ rotr s.e 11 ^^^ rotr s.e 25
  let ch := (s.e &&& s.f) ^^^ (~~~s.e &&& s.g)
  let t1 := s.h + s1 + ch + k + w
  let s0 := rotr s.a 2 ^^^ rotr s.a 13 ^^^ rotr s.a 22
  let maj := (s.a &&& s.b) ^^^ (s.a &&& s.c) ^^^ (s.b &&& s.c)
  ⟨t1 + (s0 + maj), s.a, s.b, s.c, s.d + t1, s.e, s.f, s.g⟩

/-- Compresses one 64-byte block into the state. -/
def compress (h : Working) (block : List UInt8) : Working :=
  let s := (roundConstants.zip (schedule (blockWords block))).foldl
    (fun s (k, w) => round s k w) h
  ⟨h.a + s.a, h.b + s.b, h.c + s.c, h.d + s.d, h.e + s.e, h.f + s.f, h.g + s.g, h.h + s.h⟩

/-- The `n` big-endian bytes of `x`. -/
def bigEndian (x : Nat) : Nat → List UInt8
  | 0 => []
  | n + 1 => bigEndian (x / 256) n ++ [(x % 256).toUInt8]

/-- The message padded to whole blocks. -/
def padding (msg : List UInt8) : List UInt8 :=
  msg ++ [0x80] ++ List.replicate ((119 - msg.length % 64) % 64) 0 ++
    bigEndian (8 * msg.length % Nat.pow 2 64) 8

/-- The first `n` blocks of 64 bytes. -/
def blocks : List UInt8 → Nat → List (List UInt8)
  | _, 0 => []
  | bytes, n + 1 => bytes.take 64 :: blocks (bytes.drop 64) n

/-- The digest of a state. -/
def Working.digest (s : Working) : List UInt8 :=
  [s.a, s.b, s.c, s.d, s.e, s.f, s.g, s.h].flatMap fun w => bigEndian w.toNat 4

/-- The SHA-256 digest of a message. -/
def sha256 (msg : List UInt8) : List UInt8 :=
  let p := padding msg
  ((blocks p (p.length / 64)).foldl compress initial).digest

/-- The HMAC-SHA256 tag of a message under a key. -/
def hmacSha256 (key msg : List UInt8) : List UInt8 :=
  let k := if 64 < key.length then sha256 key else key
  let k := k ++ List.replicate (64 - k.length) 0
  sha256 (k.map (· ^^^ 0x5c) ++ sha256 (k.map (· ^^^ 0x36) ++ msg))

end Skirmish.Auth
