import HubDevice.Compress.Entropy

/-!
# Prefix codes of Zstandard frames

Literals are written in one stream or in four. `PrefixTable.stream?` reads one, which has to end with its
last symbol. Of four streams that have at least eight octets each, `PrefixTable.inTurns?` reads most symbols
in turns; then it does not matter where a stream ends, as long as it did not run into the one before while
they were read in turns.
-/

namespace HubDevice.Zstd

/-- A prefix code: for each number of `log` bits the symbol it starts with and the length of its code. -/
structure PrefixTable where
  log : Nat
  cells : Array (Nat × Nat)
  /-- Whether two symbols are looked up at once. -/
  paired : Bool := false

namespace PrefixTable

/-! ## Reading a code -/

/-- The longest code. -/
def maxLog : Nat := 12

/-- The code with the given weights, without the last one, which follows from the others. There are an even
number of longest codes. -/
def ofWeights? (weights : List Nat) : Option PrefixTable := do
  let sum := weights.foldl (fun n w => if w = 0 then n else n + 2 ^ (w - 1)) 0
  if sum = 0 ∨ weights.any (maxLog < ·) then none
  let log := sum.log2 + 1
  let left := 2 ^ log - sum
  if maxLog < log ∨ 2 ^ left.log2 ≠ left then none
  let weights := weights ++ [left.log2 + 1]
  let longest := weights.count 1
  if longest = 0 ∨ longest % 2 = 1 then none
  let cells := (List.range (log + 1)).flatMap fun w =>
    if w = 0 then []
    else (weights.zipIdx.filter fun p => p.1 = w).flatMap fun p =>
      List.replicate (2 ^ (w - 1)) (p.2, log + 1 - w)
  return { log, cells := cells.toArray }

/-- Reads weights that are written with a finite-state code, with two states in turn. -/
def readWeights (t : StateTable) : Nat → Nat → Nat → Backwards → List Nat → Option (List Nat)
  | 0, _, _, _, _ => none
  | fuel + 1, this, other, b, done =>
    let done := (t.cell this).symbol :: done
    let (after, b) := t.next this b
    if b.left < 0 then some ((t.cell other).symbol :: done).reverse
    else readWeights t fuel other after b done

/-- How many weights are told apart by a finite-state code of so many bits. -/
def weightLimit (log : Nat) : Nat := if log = 6 then 12 else 92

/-- Reads the description of a code; the second part is what follows it. -/
def read? (bs : Octets) : Option (PrefixTable × Octets) := do
  match bs with
  | [] => none
  | head :: rest =>
    if head.toNat < 128 then
      let (body, after) := rest.splitAt head.toNat
      if body.length < head.toNat then none
      let (table, coded) ← StateTable.read? 6 weightLimit body
      let b ← Backwards.ofOctets? coded
      let (one, b) := table.start b
      let (two, b) := table.start b
      if b.left < 0 then none
      return (← ofWeights? (← readWeights table 254 one two b []), after)
    else
      let n := head.toNat - 127
      let (body, after) := rest.splitAt ((n + 1) / 2)
      if body.length < (n + 1) / 2 then none
      let weights := body.flatMap fun b => [b.toNat / 16, b.toNat % 16]
      return (← ofWeights? (weights.take n), after)

/-! ## Reading symbols -/

/-- How many bits are looked up at once. -/
def width (t : PrefixTable) : Nat := max 11 t.log

/-- The symbol that a number of `t.width` bits starts with, and the length of its code. -/
def cell (t : PrefixTable) (bits : Nat) : Nat × Nat :=
  t.cells[bits / 2 ^ (t.width - t.log)]?.getD (0, 0)

/-- The next symbol, the one after it if both are looked up at once, and the length of their codes. -/
def next (t : PrefixTable) (b : Backwards) : UInt8 × Option UInt8 × Nat :=
  let bits := b.look t.width
  let (one, used) := t.cell bits
  let (two, more) := t.cell (bits * 2 ^ used % 2 ^ t.width)
  if t.paired ∧ used + more ≤ t.width then (UInt8.ofNat one, some (UInt8.ofNat two), used + more)
  else (UInt8.ofNat one, none, used)

/-- Reads `n` symbols and puts them in front of others, the last one first. Where only one of two symbols is
wanted at the end, the code of the other one may be missing. -/
def symbols (t : PrefixTable) : Nat → Backwards → List UInt8 → List UInt8 × Backwards
  | 0, b, done => (done, b)
  | 1, b, done =>
    match t.next b with
    | (one, none, used) => (one :: done, b.skip used)
    | (one, some _, used) => (one :: done, if 0 < b.left then { b with left := max 0 (b.left - used) } else b)
  | n + 2, b, done =>
    match t.next b with
    | (one, none, used) => symbols t (n + 1) (b.skip used) (one :: done)
    | (one, some two, used) => symbols t n (b.skip used) (two :: one :: done)

/-- Reads a stream of exactly `n` symbols. -/
def stream? (t : PrefixTable) (n : Nat) (bs : Octets) : Option Octets := do
  let b ← Backwards.ofOctets? bs
  let (out, b) := t.symbols n b []
  if b.left = 0 then some out.reverse else none

/-! ## Four streams -/

/-- A stream of four that are read in turns. -/
structure Lane where
  /-- The octet that the stream starts with. -/
  start : Nat
  /-- The octet after those that are looked at. -/
  top : Nat
  bits : Backwards
  /-- How many symbols are still to be read. -/
  wanted : Nat
  /-- The symbols read, the last one first. -/
  done : List UInt8 := []

/-- The stream from one octet up to another. -/
def Lane.ofRange (data : Array UInt8) (start top wanted : Nat) : Lane :=
  let unused := match data[top - 1]?.getD 0 with
    | 0 => 0
    | b => 8 - b.toNat.log2
  { start, top, bits := ⟨data, (8 * top : Nat) - (unused : Int)⟩, wanted }

/-- Looks up `n` times. -/
def advance (t : PrefixTable) : Nat → Lane → Lane
  | 0, l => { l with top := ((l.bits.left + 7) / 8).toNat }
  | n + 1, l =>
    match t.next l.bits with
    | (one, none, used) =>
      advance t n { l with bits := l.bits.skip used, wanted := l.wanted - 1, done := one :: l.done }
    | (one, some two, used) =>
      advance t n { l with bits := l.bits.skip used, wanted := l.wanted - 2, done := two :: one :: l.done }

/-- Whether one more turn is sure to find symbols to read and bits to read them from. -/
def hasTurn (t : PrefixTable) (lanes : List Lane) : Bool :=
  (match lanes.head? with
    | some first => 15 ≤ first.top
    | none => false) &&
  if t.paired then lanes.all fun l => 10 ≤ l.wanted
  else match lanes.getLast? with
    | some last => 5 ≤ last.wanted
    | none => false

/-- Takes turns of five look-ups as long as there are any. -/
def turns (t : PrefixTable) : Nat → List Lane → List Lane
  | 0, lanes => lanes
  | fuel + 1, lanes => if t.hasTurn lanes then turns t fuel (lanes.map (t.advance 5)) else lanes

/-- Reads streams in turns and then to their ends. -/
def inTurns? (t : PrefixTable) (lanes : List Lane) : Option Octets :=
  let lanes := t.turns (lanes.foldl (fun n l => n + l.wanted) 0) lanes
  if lanes.all fun l => l.start ≤ l.top then
    some (lanes.flatMap fun l => (t.symbols l.wanted l.bits l.done).1.reverse)
  else none

/-- Reads four streams that together hold `n` symbols, after the sizes of the first three. -/
def fourStreams? (t : PrefixTable) (n : Nat) (bs : Octets) : Option Octets :=
  let size (i : Nat) : Nat := Octets.toNatLE ((bs.drop (2 * i)).take 2)
  let one := 6 + size 0
  let two := one + size 1
  let three := two + size 2
  let each := (n + 3) / 4
  let counts := [each, each, each, n - 3 * each]
  let ranges := [6, one, two, three].zip [one, two, three, bs.length]
  if n < 6 ∨ bs.length < 10 ∨ bs.length < three then none
  else if t.width = 11 ∧ 3 * each < n ∧ ranges.all (fun p => p.1 + 8 ≤ p.2) then
    t.inTurns? ((ranges.zip counts).map fun p => .ofRange bs.toArray p.1.1 p.1.2 p.2)
  else do
    let parts ← (ranges.zip counts).mapM fun p => t.stream? p.2 ((bs.drop p.1.1).take (p.1.2 - p.1.1))
    return parts.flatten

/-! ## Looking up pairs -/

/-- What it costs to look up one symbol or two at once: the cost of the table and that of every 256 symbols,
by the size of the streams in sixteenths of the number of symbols. -/
def costs : Array ((Nat × Nat) × (Nat × Nat)) :=
  #[((0, 0), (1, 1)), ((0, 0), (1, 1)), ((150, 216), (381, 119)), ((170, 205), (514, 112)),
    ((177, 199), (539, 110)), ((197, 194), (644, 107)), ((221, 192), (735, 107)), ((256, 189), (881, 106)),
    ((359, 188), (1167, 109)), ((582, 187), (1570, 114)), ((688, 187), (1712, 122)),
    ((825, 186), (1965, 136)), ((976, 185), (2131, 150)), ((1180, 186), (2070, 175)),
    ((1377, 185), (1731, 202)), ((1412, 185), (1695, 202))]

/-- Whether symbols in four streams are looked up two at a time. -/
def pairsPay (symbols octets : Nat) : Bool :=
  let share := if symbols ≤ octets then 15 else 16 * octets / symbols
  let (single, double) := costs[share]?.getD ((0, 0), (1, 1))
  let cost (c : Nat × Nat) : Nat := c.1 + c.2 * (symbols / 256)
  cost double + cost double / 32 < cost single

end PrefixTable

end HubDevice.Zstd
