import HubDevice.Octets

/-!
# Finite-state codes of Zstandard frames

Bits are read in two directions: tables forwards, lowest bit first, and coded symbols backwards from a
marker bit at the end. `StateTable` is a finite-state code.
-/

namespace HubDevice.Zstd

/-- The number of `n` bits at a position, the lowest bit first. Bits past the end are zero. -/
def bitsAt (data : Array UInt8) (position n : Nat) : Nat :=
  let first := position / 8
  let octets := (List.range (n / 8 + 2)).map fun i => data[first + i]?.getD 0
  Octets.toNatLE octets / 2 ^ (position % 8) % 2 ^ n

/-! ## Reading backwards -/

/-- Bits that are read from the end; `left` of them remain. It is negative once more were read than
there were. -/
structure Backwards where
  data : Array UInt8
  left : Int

namespace Backwards

/-- Starts below the marker, the highest bit set in the last octet. -/
def ofOctets? (bs : Octets) : Option Backwards :=
  match bs.getLast? with
  | none | some 0 => none
  | some b => some ⟨bs.toArray, 8 * ((bs.length : Int) - 1) + b.toNat.log2⟩

/-- The next `n` bits. Missing bits are zero, but once there is no bit left the first eight octets are gone
through again. -/
def look (n : Nat) (b : Backwards) : Nat :=
  if (n : Int) ≤ b.left then bitsAt b.data (b.left - n).toNat n
  else if 0 < b.left then bitsAt b.data 0 b.left.toNat * 2 ^ (n - b.left.toNat)
  else bitsAt b.data 0 64 * 2 ^ ((-b.left).toNat % 64) % 2 ^ 64 / 2 ^ (64 - n)

/-- Goes on by a number of bits. -/
def skip (n : Nat) (b : Backwards) : Backwards := { b with left := b.left - n }

/-- Reads a number of `n` bits; missing bits are zero. -/
def take (n : Nat) (b : Backwards) : Nat × Backwards :=
  let left := b.left - n
  let value :=
    if 0 ≤ left then bitsAt b.data left.toNat n
    else if 0 ≤ b.left then bitsAt b.data 0 b.left.toNat * 2 ^ (n - b.left.toNat)
    else 0
  (value, { b with left })

end Backwards

/-! ## Finite-state codes -/

/-- What a state stands for, how many bits lead to the next one, and from where. -/
structure StateCell where
  symbol : Nat
  bits : Nat
  base : Nat
  deriving Inhabited

/-- A finite-state code with `2 ^ log` states. -/
structure StateTable where
  log : Nat
  cells : Array StateCell
  deriving Inhabited

namespace StateTable

/-- The code that has only one symbol. -/
def single (symbol : Nat) : StateTable := ⟨0, #[⟨symbol, 0, 0⟩]⟩

/-- Spreads `n` cells of a symbol over the table, passing over the cells from `high` on. -/
def spread (symbol size high : Nat) : Nat → Array Nat → Nat → Array Nat × Nat
  | 0, cells, at_ => (cells, at_)
  | n + 1, cells, at_ =>
    let step := size / 2 + size / 8 + 3
    let rec skip : Nat → Nat → Nat
      | 0, p => p
      | fuel + 1, p => if high ≤ p then skip fuel ((p + step) % size) else p
    spread symbol size high n (cells.set! at_ symbol) (skip size ((at_ + step) % size))

/-- The table of a distribution. A symbol of weight `-1` has one cell at the end. -/
def ofWeights? (log : Nat) (weights : List Int) : Option StateTable := do
  let size := 2 ^ log
  let indexed := weights.zipIdx
  let rare := (indexed.filter fun p => p.1 = -1).map (·.2)
  if size < rare.length then none
  let high := size - rare.length
  let cells := rare.zipIdx.foldl (fun cells p => cells.set! (size - 1 - p.2) p.1) (Array.replicate size 0)
  let (cells, at_) := indexed.foldl
    (fun p w => if 0 < w.1 then spread w.2 size high w.1.toNat p.1 p.2 else p) (cells, 0)
  if at_ ≠ 0 then none
  let counts := (weights.map fun w => if w = -1 then 1 else w.toNat).toArray
  let (filled, _) := cells.foldl (fun (p : Array StateCell × Array Nat) symbol =>
    let n := p.2[symbol]?.getD 1
    let bits := log - n.log2
    (p.1.push ⟨symbol, bits, n * 2 ^ bits - size⟩, p.2.set! symbol (n + 1))) (#[], counts)
  return ⟨log, filled⟩

/-- Where reading goes on in a description of `size` octets, or of eight if they are fewer: what would stand
after its end is read from its last four octets again. -/
def wrap (size position : Nat) : Nat :=
  let last := 8 * (max 8 size - 4)
  if position < last + 32 then position else last + (position - last) % 32

/-- Adds the weights that are zero after one that is: threes as long as two bits say so, and then as many as
they say. Threes are taken twelve at a time. -/
def zeros (data : Array UInt8) : Nat → Nat → Nat → List Int → List Int × Nat
  | 0, _, position, done => (done, position)
  | fuel + 1, threes, position, done =>
    let n := bitsAt data position 2
    let done := List.replicate n 0 ++ done
    if n < 3 then (done, position + 2)
    else if threes < 11 then zeros data fuel (threes + 1) (position + 2) done
    else zeros data fuel 0 (wrap data.size (position + 2)) done

/-- Reads the weights of a distribution forwards, from a bit position. -/
def readWeights (data : Array UInt8) (most : Nat) :
    Nat → Nat → Nat → List Int → Option (List Int × Nat)
  | 0, _, _, _ => none
  | fuel + 1, position, remaining, done =>
    if remaining = 0 then some (done.reverse, position)
    else if most < done.length + 1 then none
    else
      let position := wrap data.size position
      let bits := (remaining + 1).log2 + 1
      let value := bitsAt data position bits
      let low := value % 2 ^ (bits - 1)
      let threshold := 2 ^ bits - 1 - (remaining + 1)
      let (value, position) :=
        if low < threshold then (low, position + bits - 1)
        else if 2 ^ (bits - 1) ≤ value then (value - threshold, position + bits)
        else (value, position + bits)
      let weight : Int := (value : Int) - 1
      if remaining < weight.natAbs then none
      else
        let done := weight :: done
        if weight = 0 then
          let (done, position) := zeros data (most + 1) 0 (wrap data.size position) done
          readWeights data most fuel position remaining done
        else readWeights data most fuel position (remaining - weight.natAbs) done

/-- Reads a table whose symbols are below `symbols log`; the second part is what follows it. -/
def read? (maxLog : Nat) (symbols : Nat → Nat) (bs : Octets) : Option (StateTable × Octets) := do
  let data := bs.toArray
  let log := bitsAt data 0 4 + 5
  if maxLog < log then none
  let (weights, position) ← readWeights data (symbols log) (symbols log + 2) 4 (2 ^ log) []
  let used := (position + 7) / 8
  if bs.length < used then none
  return (← ofWeights? log weights, bs.drop used)

/-- The first state. -/
def start (t : StateTable) (b : Backwards) : Nat × Backwards := b.take t.log

def cell (t : StateTable) (state : Nat) : StateCell := t.cells[state]?.getD default

/-- The state after a state. -/
def next (t : StateTable) (state : Nat) (b : Backwards) : Nat × Backwards :=
  let c := t.cell state
  let (more, b) := b.take c.bits
  (c.base + more, b)

end StateTable

end HubDevice.Zstd
