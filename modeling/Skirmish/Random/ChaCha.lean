/-!
# The ChaCha8 stream and uniform floats

`ChaCha8` is the ChaCha stream cipher with 8 rounds used as a random number generator: a 256-bit
key, a 64-bit block counter from `0` and a zero nonce. The generator is the key together with the
number of 32-bit words drawn so far; word `i` is word `i % 16` of block `i / 16`.

A 64-bit seed is expanded to the key by the PCG32 generator: the state is stepped by the
64-bit LCG `6364136223846793005 · s + 11634580027462260723` and each step gives the 32-bit
output `rotr(((s >> 18) ^ s) >> 27, s >> 59)`; eight outputs are the key words.

`uniform lo hi` draws a float in `[lo, hi)`: the top 23 bits of a word fill the fraction of a
float in `[1, 2)`, one is subtracted, and the result is scaled and shifted, drawing again in the
rare case that rounding reaches `hi`.
-/

namespace Skirmish.Random

/-- Rotates a word left by `n` bits. -/
def rotl (x : UInt32) (n : UInt32) : UInt32 := (x <<< n) ||| (x >>> (32 - n))

/-- Rotates a word right by `n` bits, `n < 32`. -/
def rotr (x : UInt32) (n : UInt32) : UInt32 := (x >>> n) ||| (x <<< (32 - n))

/-- The ChaCha quarter round on words `a b c d` of the state. -/
def quarterRound (s : Array UInt32) (a b c d : Nat) : Array UInt32 :=
  let va := s.getD a 0
  let vb := s.getD b 0
  let vc := s.getD c 0
  let vd := s.getD d 0
  let va := va + vb
  let vd := rotl (vd ^^^ va) 16
  let vc := vc + vd
  let vb := rotl (vb ^^^ vc) 12
  let va := va + vb
  let vd := rotl (vd ^^^ va) 8
  let vc := vc + vd
  let vb := rotl (vb ^^^ vc) 7
  ((((s.setIfInBounds a va).setIfInBounds b vb).setIfInBounds c vc).setIfInBounds d vd)

/-- A column round followed by a diagonal round. -/
def doubleRound (s : Array UInt32) : Array UInt32 :=
  let s := quarterRound s 0 4 8 12
  let s := quarterRound s 1 5 9 13
  let s := quarterRound s 2 6 10 14
  let s := quarterRound s 3 7 11 15
  let s := quarterRound s 0 5 10 15
  let s := quarterRound s 1 6 11 12
  let s := quarterRound s 2 7 8 13
  quarterRound s 3 4 9 14

/-- Applies `f` to `s` `n` times. -/
def iterate (f : Array UInt32 → Array UInt32) : Nat → Array UInt32 → Array UInt32
  | 0, s => s
  | n + 1, s => iterate f n (f s)

/-- The input block: constants, key, 64-bit counter, zero nonce. -/
def initialState (key : List UInt32) (counter : Nat) : Array UInt32 :=
  #[0x61707865, 0x3320646e, 0x79622d32, 0x6b206574] ++ key.toArray ++
    #[(counter % Nat.pow 2 32).toUInt32, (counter / Nat.pow 2 32 % Nat.pow 2 32).toUInt32, 0, 0]

/-- Block `counter` of the key stream: eight rounds, then the input added word by word. -/
def block (key : List UInt32) (counter : Nat) : Array UInt32 :=
  let input := initialState key counter
  let mixed := iterate doubleRound 4 input
  (mixed.zip input).map fun (m, i) => m + i

/-- One step of the PCG32 state. -/
def pcgStep (state : UInt64) : UInt64 := state * 6364136223846793005 + 11634580027462260723

/-- The PCG32 output of a state. -/
def pcgOutput (state : UInt64) : UInt32 :=
  rotr (((state >>> 18) ^^^ state) >>> 27).toUInt32 (state >>> 59).toUInt32

/-- The key words of a seed: eight PCG32 outputs, each after a step. -/
def seedWords : Nat → UInt64 → List UInt32
  | 0, _ => []
  | n + 1, state =>
    let next := pcgStep state
    pcgOutput next :: seedWords n next

/-- A ChaCha8 generator: its key and the number of words drawn. -/
structure ChaCha8 where
  key : List UInt32
  drawn : Nat

/-- The generator seeded with a 64-bit seed. -/
def ChaCha8.ofSeed (seed : UInt64) : ChaCha8 := ⟨seedWords 8 seed, 0⟩

/-- Word `i` of the stream. -/
def ChaCha8.word (g : ChaCha8) (i : Nat) : UInt32 := (block g.key (i / 16)).getD (i % 16) 0

/-- The next 32-bit word, and the generator after it. -/
def ChaCha8.nextU32 (g : ChaCha8) : UInt32 × ChaCha8 :=
  (g.word g.drawn, { g with drawn := g.drawn + 1 })

/-- A float in `[1, 2)` from the top 23 bits of a word, less one. -/
def unitFloat (w : UInt32) : Float32 := Float32.ofBits ((w >>> 9) ||| 0x3F800000) - 1

/-- Draws floats `v · (hi - lo) + lo` until one is below `hi`, for at most `fuel` draws. -/
def ChaCha8.uniformLoop (lo hi : Float32) : Nat → ChaCha8 → Float32 × ChaCha8
  | 0, g => (lo, g)
  | fuel + 1, g =>
    let (w, g) := g.nextU32
    let r := unitFloat w * (hi - lo) + lo
    if r < hi then (r, g) else ChaCha8.uniformLoop lo hi fuel g

/-- A float drawn uniformly from `[lo, hi)`, for finite `lo < hi`. A draw is retried only when
rounding reaches `hi`, which for a finite range happens for few words; sixteen draws are
allowed. -/
def ChaCha8.uniform (g : ChaCha8) (lo hi : Float32) : Float32 × ChaCha8 :=
  ChaCha8.uniformLoop lo hi 16 g

end Skirmish.Random
