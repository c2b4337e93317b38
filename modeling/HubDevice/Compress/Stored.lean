import HubDevice.Compress.Gzip
import HubDevice.Compress.Zstd

/-!
# Streams of stored octets

Both formats let a writer keep octets as they are, in blocks of bounded size, and every reader accepts that. Such a
stream says what it holds, but is no shorter than that.
-/

namespace HubDevice

namespace Deflate

/-- A stored block. -/
def storedBlock (last : Bool) (block : Octets) : Octets :=
  (if last then 1 else 0) :: (Octets.ofNatLE 2 block.length ++ Octets.ofNatLE 2 (65535 - block.length) ++
    block)

/-- Writes octets as stored blocks, with fuel for the number of blocks. -/
def storeAux : Nat → Octets → Octets
  | 0, bs => storedBlock true bs
  | fuel + 1, bs =>
    let (block, rest) := bs.splitAt 65535
    if rest.isEmpty then storedBlock true block else storedBlock false block ++ storeAux fuel rest

/-- Stored blocks with the given octets. -/
def store (bs : Octets) : Octets := storeAux bs.length bs

end Deflate

/-- A member with the given octets. -/
def Gzip.store (bs : Octets) : Octets :=
  [0x1f, 0x8b, 8, 0, 0, 0, 0, 0, 0, 0xff] ++ Deflate.store bs ++
    Octets.ofNatLE 4 (Crc32.ofOctets bs) ++ Octets.ofNatLE 4 bs.length

namespace Zstd

/-- A raw block. -/
def rawBlock (last : Bool) (block : Octets) : Octets :=
  Octets.ofNatLE 3 (8 * block.length + (if last then 1 else 0)) ++ block

/-- Writes octets as raw blocks, with fuel for the number of blocks. -/
def rawBlocks : Nat → Octets → Octets
  | 0, bs => rawBlock true bs
  | fuel + 1, bs =>
    let (block, rest) := bs.splitAt maxBlock
    if rest.isEmpty then rawBlock true block else rawBlock false block ++ rawBlocks fuel rest

/-- The descriptors of a frame of unknown content whose window is as large as the largest block. -/
def plainHeader : Octets := [0x00, 0x38]

/-- A frame with the given octets. -/
def store (bs : Octets) : Octets := magic ++ plainHeader ++ rawBlocks bs.length bs

end Zstd

end HubDevice
