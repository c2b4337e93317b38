import HubDevice.Octets

/-!
# SHA-256 and its keyed form

The hash of a sequence of octets, and the authentication code that is made of it with a key.
-/

namespace HubDevice.Sha256

/-- The constants of the rounds. -/
def constants : List UInt32 :=
  [0x428a2f98, 0x71374491, 0xb5c0fbcf, 0xe9b5dba5, 0x3956c25b, 0x59f111f1, 0x923f82a4, 0xab1c5ed5,
   0xd807aa98, 0x12835b01, 0x243185be, 0x550c7dc3, 0x72be5d74, 0x80deb1fe, 0x9bdc06a7, 0xc19bf174,
   0xe49b69c1, 0xefbe4786, 0x0fc19dc6, 0x240ca1cc, 0x2de92c6f, 0x4a7484aa, 0x5cb0a9dc, 0x76f988da,
   0x983e5152, 0xa831c66d, 0xb00327c8, 0xbf597fc7, 0xc6e00bf3, 0xd5a79147, 0x06ca6351, 0x14292967,
   0x27b70a85, 0x2e1b2138, 0x4d2c6dfc, 0x53380d13, 0x650a7354, 0x766a0abb, 0x81c2c92e, 0x92722c85,
   0xa2bfe8a1, 0xa81a664b, 0xc24b8b70, 0xc76c51a3, 0xd192e819, 0xd6990624, 0xf40e3585, 0x106aa070,
   0x19a4c116, 0x1e376c08, 0x2748774c, 0x34b0bcb5, 0x391c0cb3, 0x4ed8aa4a, 0x5b9cca4f, 0x682e6ff3,
   0x748f82ee, 0x78a5636f, 0x84c87814, 0x8cc70208, 0x90befffa, 0xa4506ceb, 0xbef9a3f7, 0xc67178f2]

/-- The eight words that are worked on. -/
structure Words where
  a : UInt32
  b : UInt32
  c : UInt32
  d : UInt32
  e : UInt32
  f : UInt32
  g : UInt32
  h : UInt32

namespace Words

/-- The words before the first block. -/
def start : Words :=
  ⟨0x6a09e667, 0xbb67ae85, 0x3c6ef372, 0xa54ff53a, 0x510e527f, 0x9b05688c, 0x1f83d9ab, 0x5be0cd19⟩

def add (x y : Words) : Words :=
  ⟨x.a + y.a, x.b + y.b, x.c + y.c, x.d + y.d, x.e + y.e, x.f + y.f, x.g + y.g, x.h + y.h⟩

def octets (x : Words) : Octets :=
  [x.a, x.b, x.c, x.d, x.e, x.f, x.g, x.h].flatMap fun w => Octets.ofNatBE 4 w.toNat

end Words

def rotr (x k : UInt32) : UInt32 := (x >>> k) ||| (x <<< (32 - k))

/-- Extends the words of a block, which are given with the newest first, to the words of all rounds. -/
def extend : Nat → List UInt32 → List UInt32
  | 0, w => w
  | n + 1, w =>
    let at_ (i : Nat) : UInt32 := (w[i]?).getD 0
    let s0 := rotr (at_ 14) 7 ^^^ rotr (at_ 14) 18 ^^^ (at_ 14 >>> 3)
    let s1 := rotr (at_ 1) 17 ^^^ rotr (at_ 1) 19 ^^^ (at_ 1 >>> 10)
    extend n ((at_ 15 + s0 + at_ 6 + s1) :: w)

/-- One round, with the sum of its constant and its word. -/
def round (x : Words) (kw : UInt32) : Words :=
  let s1 := rotr x.e 6 ^^^ rotr x.e 11 ^^^ rotr x.e 25
  let choice := (x.e &&& x.f) ^^^ ((~~~ x.e) &&& x.g)
  let t1 := x.h + s1 + choice + kw
  let s0 := rotr x.a 2 ^^^ rotr x.a 13 ^^^ rotr x.a 22
  let majority := (x.a &&& x.b) ^^^ (x.a &&& x.c) ^^^ (x.b &&& x.c)
  ⟨t1 + (s0 + majority), x.a, x.b, x.c, x.d + t1, x.e, x.f, x.g⟩

/-- The words of a block, the newest first. -/
def blockWords : Nat → Octets → List UInt32 → List UInt32
  | 0, _, w => w
  | n + 1, bs, w => blockWords n (bs.drop 4) (UInt32.ofNat (Octets.toNatBE (bs.take 4)) :: w)

/-- Works a block of 64 octets in. -/
def compress (x : Words) (block : Octets) : Words :=
  let w := (extend 48 (blockWords 16 block [])).reverse
  x.add ((List.zipWith (· + ·) constants w).foldl round x)

/-- The octets after a message of a length: a mark, zeros, and the length in bits. -/
def padding (length : Nat) : Octets :=
  0x80 :: List.replicate ((119 - length % 64) % 64) 0 ++ Octets.ofNatBE 8 (8 * length)

def blocks : Nat → Octets → Words → Words
  | 0, _, x => x
  | n + 1, bs, x => blocks n (bs.drop 64) (compress x (bs.take 64))

/-- The hash of a message. -/
def hash (bs : Octets) : Octets :=
  let padded := bs ++ padding bs.length
  (blocks (padded.length / 64) padded .start).octets

/-- The authentication code of a message under a key. -/
def authenticate (key message : Octets) : Octets :=
  let short := if key.length ≤ 64 then key else hash key
  let block := short ++ List.replicate (64 - short.length) 0
  hash (block.map (· ^^^ 0x5c) ++ hash (block.map (· ^^^ 0x36) ++ message))

end HubDevice.Sha256
