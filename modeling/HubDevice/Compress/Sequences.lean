import HubDevice.Compress.PrefixCode

/-!
# Sequences of Zstandard blocks

A block says which literals to copy, and from where to repeat what was written before. Codes and the last
three distances are carried over from one block to the next.
-/

namespace HubDevice.Zstd

/-- The codes used last, and the last three distances. -/
structure Carried where
  literals : Option PrefixTable := none
  lengths : Option StateTable := none
  offsets : Option StateTable := none
  matches_ : Option StateTable := none
  recent : Nat × Nat × Nat := (1, 4, 8)

/-- Splits off `n` octets, when there are so many. -/
def split? (n : Nat) (bs : Octets) : Option (Octets × Octets) :=
  let (head, tail) := bs.splitAt n
  if head.length = n then some (head, tail) else none

/-- Base and number of extra bits of the codes of literal lengths. -/
def lengthCodes : Array (Nat × Nat) :=
  ((List.range 16).map fun n => (n, 0)).toArray ++
    #[(16, 1), (18, 1), (20, 1), (22, 1), (24, 2), (28, 2), (32, 3), (40, 3), (48, 4), (64, 6), (128, 7),
      (256, 8), (512, 9), (1024, 10), (2048, 11), (4096, 12), (8192, 13), (16384, 14), (32768, 15),
      (65536, 16)]

/-- Base and number of extra bits of the codes of match lengths. -/
def matchCodes : Array (Nat × Nat) :=
  ((List.range 32).map fun n => (n + 3, 0)).toArray ++
    #[(35, 1), (37, 1), (39, 1), (41, 1), (43, 2), (47, 2), (51, 3), (59, 3), (67, 4), (83, 4), (99, 5),
      (131, 7), (259, 8), (515, 9), (1027, 10), (2051, 11), (4099, 12), (8195, 13), (16387, 14),
      (32771, 15), (65539, 16)]

def standardLengths : List Int :=
  [4, 3, 2, 2, 2, 2, 2, 2, 2, 2, 2, 2, 2, 1, 1, 1, 2, 2, 2, 2, 2, 2, 2, 2, 2, 3, 2, 1, 1, 1, 1, 1,
   -1, -1, -1, -1]

def standardOffsets : List Int :=
  [1, 1, 1, 1, 1, 1, 2, 2, 2, 1, 1, 1, 1, 1, 1, 1, 1, 1, 1, 1, 1, 1, 1, 1, -1, -1, -1, -1, -1]

def standardMatches : List Int :=
  [1, 4, 3, 2, 2, 2, 2, 2, 2] ++ List.replicate 37 1 ++ List.replicate 7 (-1)

/-- Reads one of the three codes of sequences, as its mode says. -/
def readTable (mode maxLog symbols standardLog : Nat) (standard : List Int) (last : Option StateTable)
    (bs : Octets) : Option (StateTable × Octets) := do
  match mode with
  | 0 => return (← StateTable.ofWeights? standardLog standard, bs)
  | 1 =>
    let (one, rest) ← split? 1 bs
    let symbol := Octets.toNatLE one
    if symbols ≤ symbol then none
    return (StateTable.single symbol, rest)
  | 2 => StateTable.read? maxLog (fun _ => symbols) bs
  | _ => return (← last, bs)

/-- Literals to copy, and then a match to copy from a distance before. -/
structure Copy where
  literals : Nat
  distance : Nat
  length : Nat

/-- The distance that an offset value means, and the distances to remember. -/
def resolve (recent : Nat × Nat × Nat) (value literals : Nat) : Nat × (Nat × Nat × Nat) :=
  let (a, b, c) := recent
  if 3 < value then (value - 3, (value - 3, a, b))
  else
    match (if literals = 0 then value + 1 else value) with
    | 1 => (a, (a, b, c))
    | 2 => (b, (b, a, c))
    | 3 => (c, (c, a, b))
    | _ => (a - 1, (a - 1, a, b))

/-- Reads `n` sequences. -/
def readCopies (lengths offsets matches_ : StateTable) :
    Nat → Nat × Nat × Nat → Backwards → Nat × Nat × Nat → List Copy →
    Option (List Copy × Backwards × (Nat × Nat × Nat))
  | 0, _, b, recent, done => some (done.reverse, b, recent)
  | n + 1, (l, o, m), b, recent, done => do
    let code := (offsets.cell o).symbol
    if 31 < code then none
    let (more, b) := b.take code
    let value := 2 ^ code + more
    let (base, extra) ← matchCodes[(matches_.cell m).symbol]?
    let (more, b) := b.take extra
    let length := base + more
    let (base, extra) ← lengthCodes[(lengths.cell l).symbol]?
    let (more, b) := b.take extra
    let literals := base + more
    let (distance, recent) := resolve recent value literals
    let done := ⟨literals, distance, length⟩ :: done
    if n = 0 then readCopies lengths offsets matches_ n (l, o, m) b recent done
    else
      let (l, b) := lengths.next l b
      let (m, b) := matches_.next m b
      let (o, b) := offsets.next o b
      readCopies lengths offsets matches_ n (l, o, m) b recent done

/-- The number of sequences, and what follows it. -/
def readCount : Octets → Option (Nat × Octets)
  | [] => none
  | a :: rest =>
    if a.toNat < 128 then some (a.toNat, rest)
    else match rest with
      | [] => none
      | b :: rest =>
        if a.toNat < 255 then some ((a.toNat - 128) * 256 + b.toNat, rest)
        else match rest with
          | [] => none
          | c :: rest => some (b.toNat + 256 * c.toNat + 0x7f00, rest)

/-- Reads the sequences of a block. -/
def readSequences (k : Carried) (bs : Octets) : Option (List Copy × Carried) := do
  let (count, rest) ← readCount bs
  if count = 0 then (if rest.isEmpty then some ([], k) else none)
  else
    match rest with
    | [] => none
    | modes :: rest =>
      let modes := modes.toNat
      if modes % 4 ≠ 0 then none
      let (lengths, rest) ← readTable (modes / 64) 9 36 6 standardLengths k.lengths rest
      let (offsets, rest) ← readTable (modes / 16 % 4) 8 32 5 standardOffsets k.offsets rest
      let (matches_, rest) ← readTable (modes / 4 % 4) 9 53 6 standardMatches k.matches_ rest
      let b ← Backwards.ofOctets? rest
      let (l, b) := lengths.start b
      let (o, b) := offsets.start b
      let (m, b) := matches_.start b
      let (copies, b, recent) ← readCopies lengths offsets matches_ count (l, o, m) b k.recent []
      if b.left ≠ 0 then none
      return (copies, { k with
        lengths := some lengths, offsets := some offsets, matches_ := some matches_, recent })

end HubDevice.Zstd
