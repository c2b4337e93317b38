import HubDevice.Compress.Checksum
import HubDevice.Compress.Deflate

/-!
# gzip

One member: a header with optional parts, compressed data, a checksum and the length of the data.
Nothing may follow the member, and reserved header flags mean nothing.
-/

namespace HubDevice.Gzip

/-- The octets after a text that ends in a zero. -/
def skipText? : Octets → Option Octets
  | [] => none
  | 0 :: rest => some rest
  | _ :: rest => skipText? rest

/-- The octets after a number of octets. -/
def skip? (n : Nat) (bs : Octets) : Option Octets :=
  let rest := bs.drop n
  if rest.length + n = bs.length then some rest else none

/-- The octets after a header. -/
def skipHeader? (bs : Octets) : Option Octets := do
  match bs with
  | 0x1f :: 0x8b :: 8 :: flags :: rest =>
    let has (bit : Nat) : Bool := flags.toNat / 2 ^ bit % 2 = 1
    let rest ← skip? 6 rest
    let rest ← if has 2 then do
        let _ ← skip? 2 rest
        skip? (2 + Octets.toNatLE (rest.take 2)) rest
      else some rest
    let rest ← if has 3 then skipText? rest else some rest
    let rest ← if has 4 then skipText? rest else some rest
    if has 1 then
      let header := bs.take (bs.length - rest.length)
      let after ← skip? 2 rest
      if Octets.toNatLE (rest.take 2) = Crc32.ofOctets header % 2 ^ 16 then some after else none
    else some rest
  | _ => none

/-- Expands octets that hold exactly one member. -/
def decompress? (bs : Octets) : Option Octets := do
  let rest ← skipHeader? bs
  let (data, trailer) ← Deflate.inflate? rest
  if trailer = Octets.ofNatLE 4 (Crc32.ofOctets data) ++ Octets.ofNatLE 4 data.length then some data
  else none

end HubDevice.Gzip
