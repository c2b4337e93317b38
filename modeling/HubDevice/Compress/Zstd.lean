import HubDevice.Compress.Checksum
import HubDevice.Compress.Sequences

/-!
# Zstandard

Reading accepts one frame with blocks of every kind, and checks the announced size and the checksum. A frame
whose announced content is small is expanded at once, and any other one piece by piece in a buffer that is
used again from its beginning when it is full; the two differ in the limits that they put on blocks.
-/

namespace HubDevice.Zstd

def magic : Octets := [0x28, 0xb5, 0x2f, 0xfd]

/-- The largest block. -/
def maxBlock : Nat := 2 ^ 17

/-- The largest window of a frame that is expanded piece by piece. -/
def maxWindow : Nat := 2 ^ 27 + 1

/-- The largest content that is expanded at once. -/
def maxAtOnce : Nat := 8192

/-- How far copying may write past its end. -/
def margin : Nat := 32

/-! ## Frames -/

/-- What a frame says about itself. -/
structure Frame where
  window : Nat
  content : Option Nat
  /-- Whether a checksum follows the blocks. -/
  checked : Bool

namespace Frame

def blockLimit (f : Frame) : Nat := min f.window maxBlock

/-- Whether all of the frame is expanded at once. -/
def atOnce (f : Frame) : Bool := f.content.any (· ≤ maxAtOnce)

/-- The size of the buffer in which a frame is expanded piece by piece. -/
def ring (f : Frame) : Nat := f.window + 2 * f.blockLimit + 2 * margin

/-- Whether a buffer holds all of the content, which then cannot be larger than announced. -/
def isWhole (f : Frame) : Bool := f.atOnce || f.content.any (· ≤ f.ring)

/-- Whether that much content may have been written so far. -/
def hasRoom (f : Frame) (size : Nat) : Bool := !f.isWhole || f.content.all (size ≤ ·)

/-- The size of a window, from its descriptor: an exponent and eighths. -/
def window? (descriptor : Nat) : Option Nat :=
  let log := 10 + descriptor / 8
  if 31 < log then none else some (2 ^ log + 2 ^ log / 8 * (descriptor % 8))

/-- Reads the header of a frame after its magic number; the second part is what follows it. A dictionary may
be mentioned only by a zero, and a content of all ones is none. -/
def read? (bs : Octets) : Option (Frame × Octets) := do
  let (descriptor, rest) ← split? 1 bs
  let descriptor := Octets.toNatLE descriptor
  let single := descriptor / 32 % 2 = 1
  if descriptor / 8 % 2 = 1 then none
  let (windowOctet, rest) ← split? (if single then 0 else 1) rest
  let window ← window? (Octets.toNatLE windowOctet)
  let (dictionary, rest) ← split? (match descriptor % 4 with
    | 3 => 4
    | n => n) rest
  if Octets.toNatLE dictionary ≠ 0 then none
  let (announced, rest) ← split? (match descriptor / 64 with
    | 0 => if single then 1 else 0
    | 1 => 2
    | 2 => 4
    | _ => 8) rest
  let size := Octets.toNatLE announced + (if descriptor / 64 = 1 then 256 else 0)
  return ({
    window := if single then size else window
    content := if announced = [] ∨ size = 2 ^ 64 - 1 then none else some size
    checked := descriptor / 4 % 2 = 1 }, rest)

end Frame

/-! ## Literals -/

/-- The literals of a block. -/
structure Literals where
  octets : Octets
  /-- Whether they are used where they stand in the block. -/
  inPlace : Bool := false

/-- Reads the literals of a block, at most so many; the last part is what follows them. -/
def readLiterals (limit : Nat) (k : Carried) (bs : Octets) : Option (Literals × Carried × Octets) := do
  let head ← bs.head?
  let kind := head.toNat % 4
  let form := head.toNat / 4 % 4
  if kind < 2 then
    let (width, shift) := match form with
      | 1 => (2, 4)
      | 3 => (3, 4)
      | _ => (1, 3)
    let (header, rest) ← split? width bs
    let n := Octets.toNatLE header / 2 ^ shift
    if limit < n then none
    if kind = 0 then
      let (literals, rest) ← split? n rest
      return (⟨literals, margin ≤ rest.length⟩, k, rest)
    else
      let (one, rest) ← split? 1 rest
      return (⟨one.flatMap (List.replicate n), false⟩, k, rest)
  else
    let (width, bits) := match form with
      | 0 | 1 => (3, 10)
      | 2 => (4, 14)
      | _ => (5, 18)
    let (header, rest) ← split? width bs
    let n := Octets.toNatLE header / 2 ^ 4 % 2 ^ bits
    let size := Octets.toNatLE header / 2 ^ (4 + bits) % 2 ^ bits
    if limit < n ∨ bs.length < 5 then none
    let (body, rest) ← split? size rest
    let (table, body) ←
      if kind = 2 then do
        let (table, streams) ← PrefixTable.read? body
        some ({ table with paired := form ≠ 0 && PrefixTable.pairsPay n size }, streams)
      else k.literals.map fun t => (t, body)
    let literals ← if form = 0 then table.stream? n body else table.fourStreams? n body
    return (⟨literals, false⟩, { k with literals := some table }, rest)

/-! ## Output -/

/-- What was written so far. The buffer was last used from its beginning when `segment` octets had been
written, and before that when `before` had been. -/
structure Output where
  octets : Array UInt8 := #[]
  segment : Nat := 0
  before : Nat := 0

/-- Where to find the octet that stands at a position, when the first `mark` octets of the segment before are
written over. -/
def Output.place (segment before mark position : Nat) : Nat :=
  if position < segment ∧ position - before < mark then segment + (position - before) else position

/-- Appends `n` octets that stand `distance` before the end. -/
def copyBack (place : Nat → Nat) (distance : Nat) : Nat → Array UInt8 → Array UInt8
  | 0, out => out
  | n + 1, out => copyBack place distance n (out.push (out[place (out.size - distance)]?.getD 0))

/-- Carries out sequences, and appends the literals that are left. No distance reaches back beyond the
segment before. -/
def perform (segment before : Nat) : List Copy → Octets → Array UInt8 → Option (Array UInt8)
  | [], literals, out => some (out ++ literals.toArray)
  | c :: rest, literals, out => do
    let (now, later) ← split? c.literals literals
    let out := out ++ now.toArray
    if c.distance = 0 ∨ out.size - before < c.distance then none
    let place := Output.place segment before (out.size - segment)
    perform segment before rest later (copyBack place c.distance c.length out)

/-- The segment goes on, or the next one begins because there is no room for another block. -/
def Output.turn (f : Frame) (o : Output) : Output :=
  if ¬ f.isWhole ∧ f.ring < o.octets.size - o.segment + f.blockLimit then
    { o with segment := o.octets.size, before := o.segment }
  else o

/-! ## Blocks -/

/-- How many octets a compressed block may expand to after so many others. -/
def room (f : Frame) (l : Literals) (done : Nat) : Nat :=
  let capacity := maxAtOnce - done
  if ¬ f.atOnce then f.blockLimit
  else if l.inPlace ∨ capacity ≤ f.blockLimit + l.octets.length + 2 * margin then capacity
  else f.blockLimit + margin

/-- Expands a compressed block. -/
def expandBlock (f : Frame) (k : Carried) (block : Octets) (out : Output) :
    Option (Carried × Array UInt8) := do
  if f.blockLimit < block.length then none
  let (literals, k, rest) ← readLiterals f.blockLimit k block
  let (copies, k) ← readSequences k rest
  let octets ← perform out.segment out.before copies literals.octets out.octets
  if out.octets.size + room f literals out.octets.size < octets.size then none
  return (k, octets)

/-- Whether the content is as large as announced. -/
def isComplete (f : Frame) (out : Output) : Bool := f.content.all (· = out.octets.size)

/-- Reads blocks up to the last one; the second part is what follows it. Piece by piece, an empty block is
passed over, and nothing is checked after it. -/
def readBlocks (f : Frame) : Nat → Carried → Octets → Output → Option (Array UInt8 × Octets)
  | 0, _, _, _ => none
  | fuel + 1, k, bs, out => do
    let (header, rest) ← split? 3 bs
    let header := Octets.toNatLE header
    let size := header / 8
    let kind := header / 2 % 4
    let isLast := header % 2 = 1
    if size = 0 ∧ (kind = 0 ∨ kind = 2) ∧ ¬ f.atOnce then
      if isLast then return (out.octets, rest) else readBlocks f fuel k rest out
    else
      if ¬ f.atOnce ∧ f.blockLimit < size then none
      let (k, octets, rest) ← match kind with
        | 0 => do
          let (block, rest) ← split? size rest
          some (k, out.octets ++ block.toArray, rest)
        | 1 => do
          let (one, rest) ← split? 1 rest
          if ¬ f.hasRoom (out.octets.size + size) then none
          some (k, out.octets ++ (one.flatMap (List.replicate size)).toArray, rest)
        | 2 => do
          let (block, rest) ← split? size rest
          let (k, octets) ← expandBlock f k block out
          some (k, octets, rest)
        | _ => none
      if ¬ f.hasRoom octets.size then none
      let out := { out with octets }.turn f
      if ¬ isLast then readBlocks f fuel k rest out
      else if isComplete f out then return (out.octets, rest) else none

/-! ## Streams -/

/-- The content of a frame after its magic number, when nothing follows it. -/
def readFrame? (bs : Octets) : Option Octets := do
  let (f, rest) ← Frame.read? bs
  if ¬ f.atOnce ∧ maxWindow < f.window then none
  let (out, rest) ← readBlocks f (rest.length + 1) {} rest {}
  let data := out.toList
  let checksum := if f.checked then Octets.ofNatLE 4 (XxHash64.ofOctets data).toNat else []
  if rest = checksum then some data else none

/-- Whether octets are one frame that is to be skipped. -/
def isSkippable (bs : Octets) : Bool :=
  match bs with
  | kind :: 0x2a :: 0x4d :: 0x18 :: rest =>
    kind / 16 = 5 && rest.length = 4 + Octets.toNatLE (rest.take 4)
  | _ => false

/-- Expands octets that hold exactly one frame; one that is to be skipped has no content. -/
def decompress? (bs : Octets) : Option Octets := do
  if isSkippable bs then some []
  else
    let (start, rest) ← split? 4 bs
    if start = magic then readFrame? rest else none

end HubDevice.Zstd
