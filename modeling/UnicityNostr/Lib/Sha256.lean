import Mathlib.Algebra.Ring.Nat
import Mathlib.Data.List.Basic

/-!
# SHA-256

The hash of a byte string: padded to blocks of 64 bytes, each of which is
expanded to 64 words and mixed into a state of eight words in as many rounds.
-/

namespace Sha256

/-- The state: eight words. -/
structure State where
  (a b c d e f g h : UInt32)

/-! ## Words -/

/-- The word rotated to the right. -/
def rotr (x n : UInt32) : UInt32 := x >>> n ||| x <<< (32 - n)

def ch (x y z : UInt32) : UInt32 := (x &&& y) ^^^ (~~~x &&& z)
def maj (x y z : UInt32) : UInt32 := (x &&& y) ^^^ (x &&& z) ^^^ (y &&& z)

def bigSigma0 (x : UInt32) : UInt32 := rotr x 2 ^^^ rotr x 13 ^^^ rotr x 22
def bigSigma1 (x : UInt32) : UInt32 := rotr x 6 ^^^ rotr x 11 ^^^ rotr x 25
def smallSigma0 (x : UInt32) : UInt32 := rotr x 7 ^^^ rotr x 18 ^^^ x >>> 3
def smallSigma1 (x : UInt32) : UInt32 := rotr x 17 ^^^ rotr x 19 ^^^ x >>> 10

/-- The word of four bytes, the high ones first. -/
def word (bs : List UInt8) : UInt32 := bs.foldl (fun v b => v <<< 8 ||| b.toUInt32) 0

/-- The four bytes of a word, the high ones first. -/
def wordBytes (w : UInt32) : List UInt8 :=
  [(w >>> 24).toUInt8, (w >>> 16).toUInt8, (w >>> 8).toUInt8, w.toUInt8]

/-! ## Rounds -/

/-- The first state: the fractional parts of the square roots of the first eight
    primes. -/
def initial : State where
  a := 0x6a09e667
  b := 0xbb67ae85
  c := 0x3c6ef372
  d := 0xa54ff53a
  e := 0x510e527f
  f := 0x9b05688c
  g := 0x1f83d9ab
  h := 0x5be0cd19

/-- The constants of the rounds: the fractional parts of the cube roots of the
    first 64 primes. -/
def roundConstants : List UInt32 := [
  0x428a2f98, 0x71374491, 0xb5c0fbcf, 0xe9b5dba5, 0x3956c25b, 0x59f111f1, 0x923f82a4, 0xab1c5ed5,
  0xd807aa98, 0x12835b01, 0x243185be, 0x550c7dc3, 0x72be5d74, 0x80deb1fe, 0x9bdc06a7, 0xc19bf174,
  0xe49b69c1, 0xefbe4786, 0x0fc19dc6, 0x240ca1cc, 0x2de92c6f, 0x4a7484aa, 0x5cb0a9dc, 0x76f988da,
  0x983e5152, 0xa831c66d, 0xb00327c8, 0xbf597fc7, 0xc6e00bf3, 0xd5a79147, 0x06ca6351, 0x14292967,
  0x27b70a85, 0x2e1b2138, 0x4d2c6dfc, 0x53380d13, 0x650a7354, 0x766a0abb, 0x81c2c92e, 0x92722c85,
  0xa2bfe8a1, 0xa81a664b, 0xc24b8b70, 0xc76c51a3, 0xd192e819, 0xd6990624, 0xf40e3585, 0x106aa070,
  0x19a4c116, 0x1e376c08, 0x2748774c, 0x34b0bcb5, 0x391c0cb3, 0x4ed8aa4a, 0x5b9cca4f, 0x682e6ff3,
  0x748f82ee, 0x78a5636f, 0x84c87814, 0x8cc70208, 0x90befffa, 0xa4506ceb, 0xbef9a3f7, 0xc67178f2]

/-- One round, with a constant and a word. -/
def round (s : State) (k w : UInt32) : State :=
  let t1 := s.h + bigSigma1 s.e + ch s.e s.f s.g + k + w
  let t2 := bigSigma0 s.a + maj s.a s.b s.c
  ⟨t1 + t2, s.a, s.b, s.c, s.d + t1, s.e, s.f, s.g⟩

/-- The next `n` words of a message schedule, from sixteen of them. -/
def schedule : Nat → List UInt32 → List UInt32
  | 0, _ => []
  | n + 1, ws => ws.getD 0 0 :: schedule n (ws.tail ++
      [smallSigma1 (ws.getD 14 0) + ws.getD 9 0 + smallSigma0 (ws.getD 1 0) + ws.getD 0 0])

/-- The state after a block of 64 bytes. -/
def compress (s : State) (block : List UInt8) : State :=
  let words := (List.range 16).map fun i => word ((block.drop (4 * i)).take 4)
  let t := (roundConstants.zip (schedule 64 words)).foldl (fun s (k, w) => round s k w) s
  ⟨s.a + t.a, s.b + t.b, s.c + t.c, s.d + t.d, s.e + t.e, s.f + t.f, s.g + t.g, s.h + t.h⟩

/-! ## Messages -/

/-- The number of bits of `n` bytes, in eight bytes. -/
def lengthBytes (n : Nat) : List UInt8 :=
  (List.range 8).map fun i => UInt8.ofNat (8 * n / 256 ^ (7 - i))

/-- The message, one bit, and zeros up to its length at the end of a block. -/
def pad (bs : List UInt8) : List UInt8 :=
  let zeros : List UInt8 := List.replicate ((119 - bs.length % 64) % 64) 0
  bs ++ [0x80] ++ zeros ++ lengthBytes bs.length

/-- The first `n` blocks. -/
def blocks : Nat → List UInt8 → List (List UInt8)
  | 0, _ => []
  | n + 1, bs => bs.take 64 :: blocks n (bs.drop 64)

/-- The bytes of the words of a state. -/
def digest (s : State) : List UInt8 := [s.a, s.b, s.c, s.d, s.e, s.f, s.g, s.h].flatMap wordBytes

/-- The hash of a byte string. -/
@[irreducible] def hash (bs : List UInt8) : List UInt8 :=
  digest ((blocks ((pad bs).length / 64) (pad bs)).foldl compress initial)

/-- A hash has 32 bytes. -/
theorem length_hash (bs : List UInt8) : (hash bs).length = 32 := by
  unfold hash
  rfl

end Sha256
