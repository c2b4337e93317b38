import HubDevice.Octets

/-!
# Checksums

The cyclic redundancy check of 32 bits that closes a gzip member, and the 64-bit hash of which the low
half closes a Zstandard frame.
-/

namespace HubDevice

namespace Crc32

/-- Eight steps of the division by the generator polynomial, lowest bit first. -/
def shiftOctet : Nat → UInt32 → UInt32
  | 0, c => c
  | k + 1, c => shiftOctet k (if c &&& 1 = 1 then (c >>> 1) ^^^ 0xedb88320 else c >>> 1)

/-- The checksum register after one more octet. -/
def step (c : UInt32) (b : UInt8) : UInt32 := shiftOctet 8 (c ^^^ b.toUInt32)

/-- The checksum of octets. -/
def ofOctets (bs : Octets) : Nat := ((bs.foldl step 0xffffffff) ^^^ 0xffffffff).toNat

end Crc32

namespace XxHash64

def prime1 : UInt64 := 11400714785074694791
def prime2 : UInt64 := 14029467366897019727
def prime3 : UInt64 := 1609587929392839161
def prime4 : UInt64 := 9650029242287828579
def prime5 : UInt64 := 2870177450012600261

def rotl (x : UInt64) (k : UInt64) : UInt64 := (x <<< k) ||| (x >>> (64 - k))

/-- Mixes a lane of eight octets into an accumulator. -/
def round (acc lane : UInt64) : UInt64 := rotl (acc + lane * prime2) 31 * prime1

def mergeRound (h acc : UInt64) : UInt64 := (h ^^^ round 0 acc) * prime1 + prime4

def lane (bs : Octets) : UInt64 := UInt64.ofNat (Octets.toNatLE bs)

/-- The four accumulators after all full stripes of 32 octets, and what is left. -/
def stripes : Nat → UInt64 × UInt64 × UInt64 × UInt64 → Octets →
    (UInt64 × UInt64 × UInt64 × UInt64) × Octets
  | 0, accs, bs => (accs, bs)
  | fuel + 1, (a, b, c, d), bs =>
    let stripe := bs.take 32
    if stripe.length < 32 then ((a, b, c, d), bs)
    else stripes fuel (round a (lane (stripe.take 8)), round b (lane ((stripe.drop 8).take 8)),
      round c (lane ((stripe.drop 16).take 8)), round d (lane (stripe.drop 24))) (bs.drop 32)

/-- Mixes in the octets after the last stripe: eight, four and one at a time. -/
def tail : Nat → UInt64 → Octets → UInt64
  | 0, h, _ => h
  | _, h, [] => h
  | fuel + 1, h, b :: rest =>
    let bs := b :: rest
    if 8 ≤ bs.length then
      tail fuel (rotl (h ^^^ round 0 (lane (bs.take 8))) 27 * prime1 + prime4) (bs.drop 8)
    else if 4 ≤ bs.length then
      tail fuel (rotl (h ^^^ (lane (bs.take 4) * prime1)) 23 * prime2 + prime3) (bs.drop 4)
    else tail fuel (rotl (h ^^^ (b.toUInt64 * prime5)) 11 * prime1) rest

def avalanche (h : UInt64) : UInt64 :=
  let h := (h ^^^ (h >>> 33)) * prime2
  let h := (h ^^^ (h >>> 29)) * prime3
  h ^^^ (h >>> 32)

/-- The hash of octets with seed zero. -/
def ofOctets (bs : Octets) : UInt64 :=
  let ((a, b, c, d), rest) := stripes bs.length (prime1 + prime2, prime2, 0, 0 - prime1) bs
  let h :=
    if bs.length < 32 then prime5
    else
      let h := rotl a 1 + rotl b 7 + rotl c 12 + rotl d 18
      mergeRound (mergeRound (mergeRound (mergeRound h a) b) c) d
  avalanche (tail rest.length (h + UInt64.ofNat bs.length) rest)

end XxHash64

end HubDevice
