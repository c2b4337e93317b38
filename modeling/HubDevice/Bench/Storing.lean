import HubDevice.Codec
import HubDevice.Compress.Stored

/-!
# Compressors of a rehearsal

A rehearsal links no compressors. What is to be compressed is stored instead.
-/

namespace HubDevice

namespace Bench

/-- Compressors that store. -/
abbrev storing : Compressors where
  gzip bs := .ok (Gzip.store bs)
  zstd bs := .ok (Zstd.store bs)

instance : Compressors := storing

end Bench

/-- The octets that stand for compressed ones in a rehearsal. -/
def Compression.compress (c : Compression) (bs : Octets) : Octets :=
  match Codec.compress c bs with
  | .ok out => out
  | .error _ => []

end HubDevice
