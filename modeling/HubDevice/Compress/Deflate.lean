import HubDevice.Octets

/-!
# DEFLATE

Reading accepts stored, fixed and dynamic blocks.
-/

namespace HubDevice.Deflate

/-! ## Bits -/

/-- Input whose bits are taken lowest first. -/
structure BitSource where
  /-- Bits taken from the octets but not used yet. -/
  buffer : Nat := 0
  count : Nat := 0
  rest : Octets

namespace BitSource

/-- Moves octets into the buffer until it holds `k` bits. -/
def fill? : Nat → Nat → BitSource → Option BitSource
  | 0, k, b => if k ≤ b.count then some b else none
  | fuel + 1, k, b =>
    if k ≤ b.count then some b
    else match b.rest with
      | [] => none
      | x :: rest => fill? fuel k ⟨b.buffer + x.toNat * 2 ^ b.count, b.count + 8, rest⟩

/-- Takes a number of `k` bits. -/
def take? (k : Nat) (b : BitSource) : Option (Nat × BitSource) := do
  let b ← fill? k k b
  return (b.buffer % 2 ^ k, ⟨b.buffer / 2 ^ k, b.count - k, b.rest⟩)

/-- Drops bits up to the next octet. -/
def align (b : BitSource) : BitSource :=
  let odd := b.count % 8
  ⟨b.buffer / 2 ^ odd, b.count - odd, b.rest⟩

/-- The octets that were not used at all. -/
def unread (b : BitSource) : Octets := Octets.ofNatLE (b.count / 8) b.align.buffer ++ b.rest

end BitSource

/-! ## Huffman codes -/

/-- A canonical code: how many symbols have each length, and the symbols in the order of their codes. -/
structure Code where
  counts : Array Nat
  symbols : Array Nat

namespace Code

/-- How many codes of 15 bits the given lengths use up. -/
def weight (lengths : List Nat) : Nat :=
  lengths.foldl (fun n l => if l = 0 then n else n + 2 ^ (15 - l)) 0

/-- Whether lengths use up all codes, which those of a code of code lengths have to do. -/
def isFull (lengths : List Nat) : Bool := weight lengths = 2 ^ 15

/-- Whether there is no symbol at all, or only one, with a code of one bit. -/
def isTrivial (lengths : List Nat) : Bool :=
  match lengths.filter (0 < ·) with
  | [] | [1] => true
  | _ => false

/-- The code with these lengths. They have to use up all codes, unless the code is trivial. -/
def ofLengths? (lengths : List Nat) : Option Code :=
  if ¬ isFull lengths ∧ ¬ isTrivial lengths then none
  else
    let counts := (List.range 16).map fun l => if l = 0 then 0 else lengths.count l
    let symbols := (List.range 16).flatMap fun l =>
      if l = 0 then [] else (lengths.zipIdx.filter fun p => p.1 = l).map (·.2)
    some ⟨counts.toArray, symbols.toArray⟩

/-- Reads one symbol, bit by bit. -/
def readFrom? (c : Code) : Nat → Nat → Nat → Nat → Nat → BitSource → Option (Nat × BitSource)
  | 0, _, _, _, _, _ => none
  | fuel + 1, length, code, first, index, b => do
    let (bit, b) ← b.take? 1
    let code := code + bit
    let count := c.counts[length]?.getD 0
    if code < first + count then return (← c.symbols[index + (code - first)]?, b)
    else readFrom? c fuel (length + 1) (2 * code) (2 * (first + count)) (index + count) b

def read? (c : Code) (b : BitSource) : Option (Nat × BitSource) := c.readFrom? 15 1 0 0 0 b

end Code

/-! ## Blocks -/

/-- The base and the number of extra bits of a match length symbol. -/
def lengthTable : Array (Nat × Nat) :=
  #[(3, 0), (4, 0), (5, 0), (6, 0), (7, 0), (8, 0), (9, 0), (10, 0), (11, 1), (13, 1), (15, 1), (17, 1),
    (19, 2), (23, 2), (27, 2), (31, 2), (35, 3), (43, 3), (51, 3), (59, 3), (67, 4), (83, 4), (99, 4),
    (115, 4), (131, 5), (163, 5), (195, 5), (227, 5), (258, 0)]

/-- The base and the number of extra bits of a distance symbol. -/
def distanceTable : Array (Nat × Nat) :=
  #[(1, 0), (2, 0), (3, 0), (4, 0), (5, 1), (7, 1), (9, 2), (13, 2), (17, 3), (25, 3), (33, 4), (49, 4),
    (65, 5), (97, 5), (129, 6), (193, 6), (257, 7), (385, 7), (513, 8), (769, 8), (1025, 9), (1537, 9),
    (2049, 10), (3073, 10), (4097, 11), (6145, 11), (8193, 12), (12289, 12), (16385, 13), (24577, 13)]

/-- Appends `n` octets that stand `distance` before the end. Zeros stand before the beginning. -/
def copy (distance : Nat) : Nat → Array UInt8 → Array UInt8
  | 0, out => out
  | n + 1, out =>
    copy distance n (out.push (if distance ≤ out.size then out[out.size - distance]?.getD 0 else 0))

/-- Reads symbols up to the end of a block. -/
def readSymbols (literals distances : Code) :
    Nat → BitSource → Array UInt8 → Option (BitSource × Array UInt8)
  | 0, _, _ => none
  | fuel + 1, b, out => do
    let (symbol, b) ← literals.read? b
    if symbol < 256 then readSymbols literals distances fuel b (out.push (UInt8.ofNat symbol))
    else if symbol = 256 then return (b, out)
    else
      let (base, extra) ← lengthTable[symbol - 257]?
      let (more, b) ← b.take? extra
      let (symbol, b) ← distances.read? b
      let (far, extra) ← distanceTable[symbol]?
      let (further, b) ← b.take? extra
      readSymbols literals distances fuel b (copy (far + further) (base + more) out)

/-- The code lengths of the literals in a fixed block. -/
def fixedLiterals : List Nat :=
  List.replicate 144 8 ++ List.replicate 112 9 ++ List.replicate 24 7 ++ List.replicate 8 8

/-- The order in which the lengths of the length code are written. -/
def lengthOrder : List Nat := [16, 17, 18, 0, 8, 7, 9, 6, 10, 5, 11, 4, 12, 3, 13, 2, 14, 1, 15]

/-- Reads `n` numbers of three bits. -/
def readTriples : Nat → BitSource → Option (List Nat × BitSource)
  | 0, b => some ([], b)
  | n + 1, b => do
    let (x, b) ← b.take? 3
    let (xs, b) ← readTriples n b
    return (x :: xs, b)

/-- Reads code lengths until there are `wanted`; `done` are those so far, the last one first. -/
def readLengths (code : Code) (wanted : Nat) :
    Nat → List Nat → BitSource → Option (List Nat × BitSource)
  | 0, _, _ => none
  | fuel + 1, done, b =>
    if done.length = wanted then some (done.reverse, b)
    else if wanted < done.length then none
    else do
      let (symbol, b) ← code.read? b
      if symbol < 16 then readLengths code wanted fuel (symbol :: done) b
      else if symbol = 16 then
        let last ← done.head?
        let (n, b) ← b.take? 2
        readLengths code wanted fuel (List.replicate (3 + n) last ++ done) b
      else if symbol = 17 then
        let (n, b) ← b.take? 3
        readLengths code wanted fuel (List.replicate (3 + n) 0 ++ done) b
      else
        let (n, b) ← b.take? 7
        readLengths code wanted fuel (List.replicate (11 + n) 0 ++ done) b

/-- Reads the two codes of a dynamic block. -/
def readCodes (b : BitSource) : Option (Code × Code × BitSource) := do
  let (hlit, b) ← b.take? 5
  let (hdist, b) ← b.take? 5
  let (hclen, b) ← b.take? 4
  let literals := 257 + hlit
  let distances := 1 + hdist
  if 286 < literals ∨ 30 < distances then none
  let (triples, b) ← readTriples (4 + hclen) b
  let lengthOf (symbol : Nat) : Nat :=
    ((lengthOrder.zip triples).find? fun p => p.1 = symbol).map (·.2) |>.getD 0
  let lengths := (List.range 19).map lengthOf
  if ¬ Code.isFull lengths then none
  let code ← Code.ofLengths? lengths
  let (lengths, b) ← readLengths code (literals + distances) (literals + distances + 1) [] b
  return (← Code.ofLengths? (lengths.take literals), ← Code.ofLengths? (lengths.drop literals), b)

/-- Reads a stored block. -/
def readStored (b : BitSource) (out : Array UInt8) : Option (BitSource × Array UInt8) := do
  let bs := b.align.unread
  let (length, check) := (Octets.toNatLE (bs.take 2), Octets.toNatLE ((bs.drop 2).take 2))
  if (bs.take 4).length < 4 ∨ length + check ≠ 65535 then none
  let (block, rest) := (bs.drop 4).splitAt length
  if block.length < length then none
  return (⟨0, 0, rest⟩, out ++ block.toArray)

/-- Reads blocks up to the last one. -/
def readBlocks (symbols : Nat) : Nat → BitSource → Array UInt8 → Option (BitSource × Array UInt8)
  | 0, _, _ => none
  | fuel + 1, b, out => do
    let (last, b) ← b.take? 1
    let (kind, b) ← b.take? 2
    let (b, out) ← match kind with
      | 0 => readStored b out
      | 1 => do
        let literals ← Code.ofLengths? fixedLiterals
        let distances ← Code.ofLengths? (List.replicate 32 5)
        readSymbols literals distances symbols b out
      | 2 => do
        let (literals, distances, b) ← readCodes b
        readSymbols literals distances symbols b out
      | _ => none
    if last = 1 then return (b, out) else readBlocks symbols fuel b out

/-- Expands compressed octets; the second part is what follows them. Every symbol and every block takes
at least one bit, so the number of bits is enough fuel. -/
def inflate? (bs : Octets) : Option (Octets × Octets) := do
  let bits := 8 * bs.length + 1
  let (b, out) ← readBlocks bits bits ⟨0, 0, bs⟩ #[]
  return (out.toList, b.align.unread)

end HubDevice.Deflate
